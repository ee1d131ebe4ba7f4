import Ovlive.Impl.Api.Boards
import Ovlive.Impl.Gtfs.Grid

/-!
# The stops endpoint (`crates/api/src/rest.rs`)

`stops_in_viewport`, from the parsed query on. The area is that of `f64`: the
sides and their product are rounded. The index is absent until it is built.
-/

namespace OV.Impl

def MAX_STOPS_BBOX_AREA : Num := .fin 1
def DEFAULT_STOPS_LIMIT : Nat := 800
def MAX_STOPS_LIMIT : Nat := 2000

structure StopsResponse where
  count : Nat
  truncated : Bool
  stops : List StopJson

/-- `stops_in_viewport`. -/
def stopsInViewport (cosDegrees : Num → Num) (indexes : Option StopGrid) (bbox : Option BBox) (limit : Option Nat) :
    Except ErrorResponse StopsResponse :=
  match bbox with
  | none => .error { code := 400, msg := "bbox is required as minLon,minLat,maxLon,maxLat" }
  | some b =>
    let area := ((b.maxLon.sub b.minLon).f64.abs.mul (b.maxLat.sub b.minLat).f64.abs).f64
    if !area.isFinite || MAX_STOPS_BBOX_AREA.lt area then .error { code := 400, msg := "bbox too large — zoom in" }
    else
      match indexes with
      | none => .error { code := 503, msg := "stop index not built yet" }
      | some idx =>
        let limit := max 1 (min MAX_STOPS_LIMIT (limit.getD DEFAULT_STOPS_LIMIT))
        let stops := (idx.inBbox cosDegrees b limit).map StopJson.from_
        .ok { count := stops.length, truncated := limit ≤ stops.length, stops := stops }

end OV.Impl
