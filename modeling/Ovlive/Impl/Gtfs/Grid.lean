import Mathlib.Data.List.Sort
import Ovlive.Framework.Rounding
import Ovlive.Impl.Core.Filter
import Ovlive.Impl.Gtfs.Model

/-!
# The stops of a viewport (`crates/gtfs/src/stops.rs`)

The grid over the boardable quays, and `in_bbox`, which reads it. A cell is found
as `f64` finds it: the sizes are the doubles nearest those of the source, and the
quotient is rounded. A distance is exact. The cosine that scales a longitude is a
parameter. The slots of the source (`u32`) are positions
in the list of the stops; the name that it keeps beside a stop's id, for the
search, is left out.
-/

namespace OV.Impl

/-- `StopInfo::is_quay`. -/
def StopInfo.isQuay (s : StopInfo) : Bool := s.locationType ≠ 1 && !"stoparea:".toList.isPrefixOf s.stopId.toList

def CELL_LAT : ℚ := Ieee.nearest Ieee.binary64 0.05
def CELL_LON : ℚ := Ieee.nearest Ieee.binary64 0.08

/-- `cell`. -/
def cell (lat lon : Num) : Int × Int := ((lat.divBy CELL_LAT).f64.floor.toI32, (lon.divBy CELL_LON).f64.floor.toI32)

example : cell (Num.f64 (.fin 0.15)) (Num.f64 (.fin 0.24)) = (2, 3) := by decide +kernel

/-- `lo..=hi`. -/
def rangeInclusive (lo hi : Int) : List Int := (List.range (hi - lo + 1).toNat).map fun n : Nat => lo + n

/-- The grid of `StopIndexes`. -/
structure StopGrid where
  store : GtfsStore
  grid : Map (Int × Int) (List Nat) := ∅
  stopSlots : List String := []

namespace StopGrid

/-- Index a stop: boardable quays only, and in the grid those with coordinates. -/
def add (g : StopGrid) (stop : StopInfo) : StopGrid :=
  if stop.isQuay then
    { g with
      stopSlots := g.stopSlots ++ [stop.stopId]
      grid :=
        if stop.lat.isFinite && stop.lon.isFinite then Map.push (cell stop.lat stop.lon) g.stopSlots.length g.grid
        else g.grid }
  else g

/-- The grid of `StopIndexes::build`. -/
def build (store : GtfsStore) : StopGrid := (Map.values store.stops).foldl add { store := store }

variable (g : StopGrid)

/-- The stops of a cell. -/
def stopsOf (c : Int × Int) : List StopInfo :=
  (Map.valuesAt g.grid c).filterMap fun slot => g.stopSlots[slot]?.bind fun id => g.store.stops.lookup id

/-- A stop outside of the box: cells overlap its edges. -/
def outside (b : BBox) (stop : StopInfo) : Bool :=
  stop.lat.lt b.minLat || b.maxLat.lt stop.lat || stop.lon.lt b.minLon || b.maxLon.lt stop.lon

/-- The square of the distance from the centre of the box, in degrees. -/
def distanceFrom (cosDegrees : Num → Num) (b : BBox) (stop : StopInfo) : Num :=
  let cLat := (b.minLat.add b.maxLat).divBy 2
  let cLon := (b.minLon.add b.maxLon).divBy 2
  let dlat := stop.lat.sub cLat
  let dlon := (stop.lon.sub cLon).mul (cosDegrees cLat)
  (dlat.mul dlat).add (dlon.mul dlon)

/-- The stops of the box, in the order of the cells. -/
def hits (b : BBox) : List StopInfo :=
  let lo := cell b.minLat b.minLon
  let hi := cell b.maxLat b.maxLon
  (rangeInclusive lo.1 hi.1).flatMap fun y =>
    (rangeInclusive lo.2 hi.2).flatMap fun x => (g.stopsOf (y, x)).filter fun stop => !outside b stop

/-- `in_bbox`: nearest the centre first. -/
def inBbox (cosDegrees : Num → Num) (b : BBox) (limit : Nat) : List StopInfo :=
  ((g.hits b).insertionSort fun s t => (distanceFrom cosDegrees b s).totalLe (distanceFrom cosDegrees b t)).take limit

end StopGrid

end OV.Impl
