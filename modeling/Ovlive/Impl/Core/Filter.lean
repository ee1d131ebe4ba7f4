import Ovlive.Impl.Core.Model

/-!
# Filters (`crates/core/src/filter.rs`)
-/

namespace OV.Impl

/-- A geographic bounding box, in degrees. -/
structure BBox where
  minLat : Num
  minLon : Num
  maxLat : Num
  maxLon : Num
  deriving DecidableEq

namespace BBox

/-- `BBox::contains`: the edges belong to the box. -/
def contains (b : BBox) (lat lon : Num) : Bool :=
  b.minLat.le lat && lat.le b.maxLat && b.minLon.le lon && lon.le b.maxLon

/-- Both minima are at most their maxima. -/
def Ordered (b : BBox) : Prop := b.minLat.le b.maxLat = true ∧ b.minLon.le b.maxLon = true

end BBox

/-- Attribute filters: an empty list or search matches everything. -/
structure Filters where
  vehicleTypes : List VehicleType := []
  dataowners : List String := []
  search : String := ""
  deriving DecidableEq

/-- `Filters::matches`. -/
def Filters.matches (f : Filters) (t : LiveTrip) : Bool :=
  let q := Text.asciiLower f.search
  let hay := [some t.key.vehicleNumber, t.linePublicNumber, t.linePlanningNumber, t.blockCode, t.journeyNumber]
  (f.vehicleTypes.isEmpty || f.vehicleTypes.contains t.vehicleType) &&
    (f.dataowners.isEmpty || f.dataowners.any fun d => Text.eqIgnoreCase d t.key.dataowner) &&
    (f.search.isEmpty || (hay.filterMap id).any fun s => Text.contains (Text.asciiLower s) q)

end OV.Impl
