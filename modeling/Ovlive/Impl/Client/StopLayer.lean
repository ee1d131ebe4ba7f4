import Ovlive.Framework.Run
import Ovlive.Impl.Api.Viewport

/-!
# The stop layer of the map (`apps/web/app/components/MapView.tsx`)

`loadStops`, and what runs it: the end of a move, a resize, a new style, and the
toggle of the layer. The map of the app (`apps/mobile/components/map/LiveMap.tsx`)
has the same function. A request that is aborted has no effect any more, so only
the last one is kept. The names of the stops and the drawing are left out.
-/

namespace OV.Impl.Client

def STOPS_ZOOM : ℚ := 14
def STOPS_LIMIT : Nat := 800
def STOPS_PAD : Num := .fin (7 / 20)

/-- `padBBox`. -/
def padBBox (b : BBox) (f : Num) : BBox :=
  let dLat := (b.maxLat.sub b.minLat).mul f
  let dLon := (b.maxLon.sub b.minLon).mul f
  { minLat := b.minLat.sub dLat
    minLon := b.minLon.sub dLon
    maxLat := b.maxLat.add dLat
    maxLon := b.maxLon.add dLon }

/-- `covers`. -/
def covers (have_ : Option BBox) (view : BBox) : Bool :=
  have_.any fun h =>
    h.minLat.le view.minLat && h.minLon.le view.minLon && view.maxLat.le h.maxLat && view.maxLon.le h.maxLon

/-- A stop as drawn (`stopFeature`). -/
structure StopFeature where
  stopId : String
  lon : Num
  lat : Num
  deriving DecidableEq

def stopFeature (s : StopJson) : StopFeature where
  stopId := s.stopId
  lon := s.lon
  lat := s.lat

structure StopLayer where
  showStops : Bool
  zoom : ℚ
  /-- `boundsToBBox(map)`. -/
  view : BBox
  /-- `stopsRef`. -/
  stops : List StopFeature := []
  stopsBox : Option BBox := none
  /-- The box of the request that is out, unless aborted. -/
  request : Option BBox := none

inductive StopAction
  /-- The map has come to rest, was resized or has its style. -/
  | move (view : BBox) (zoom : ℚ)
  | toggle (on : Bool)
  /-- The request is answered, or fails. -/
  | answer
  | fail

namespace StopLayer

variable (s : StopLayer)

/-- `loadStops`, up to its request. -/
def loadStops : StopLayer :=
  if s.showStops = false ∨ s.zoom < STOPS_ZOOM then s
  else if covers s.stopsBox s.view then s
  else { s with request := some (padBBox s.view STOPS_PAD) }

/-- What it does with the answer. -/
def arrive (box : BBox) (res : StopsResponse) : StopLayer :=
  { s with
    request := none
    stops := res.stops.map stopFeature
    stopsBox := if res.truncated then none else some box }

/-- The state after an action, where it can happen. -/
def step (cosDegrees : Num → Num) (indexes : Option StopGrid) : StopAction → Option StopLayer
  | .move view zoom => some { s with view := view, zoom := zoom }.loadStops
  | .toggle on => some (if on then { s with showStops := on }.loadStops else { s with showStops := on })
  | .answer =>
    match s.request with
    | some box =>
      match stopsInViewport cosDegrees indexes (some box) (some STOPS_LIMIT) with
      | .ok res => some (s.arrive box res)
      | .error _ => none
    | none => none
  | .fail => s.request.map fun _ => { s with request := none }

end StopLayer

/-- The steps of the layer. -/
def StopLayer.Step (cosDegrees : Num → Num) (indexes : Option StopGrid) (s : StopLayer) (a : StopAction) (t : StopLayer) :
    Prop :=
  s.step cosDegrees indexes a = some t

end OV.Impl.Client
