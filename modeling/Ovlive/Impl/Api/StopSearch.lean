import Ovlive.Impl.Api.Boards
import Ovlive.Impl.Gtfs.Search

/-!
# The stop search of the API (`crates/api/src/legacy.rs`)

`stops_search`, which groups the stops that are found by their names.
-/

namespace OV.Impl

def STOP_SEARCH_NAME_LIMIT : Nat := 20

structure StopSearchStop where
  stopId : String
  stopCode : Option String
  lat : Num
  lon : Num

structure StopSearchResult where
  stopName : String
  stops : List StopSearchStop

/-- A stop as an entry of its group. -/
def StopSearchStop.from_ (s : StopInfo) : StopSearchStop where
  stopId := s.stopId
  stopCode := s.code
  lat := s.lat
  lon := s.lon

/-- Add a stop to the first group of its name, or to a new one. -/
def addStop (s : StopInfo) : List StopSearchResult → List StopSearchResult
  | [] => [{ stopName := s.name, stops := [StopSearchStop.from_ s] }]
  | group :: groups =>
    if group.stopName = s.name then { group with stops := group.stops ++ [StopSearchStop.from_ s] } :: groups
    else group :: addStop s groups

/-- `stops_search`. -/
def stopsSearch (lower : String → String) (indexes : Option StopNames) (q : Option String) :
    Except ErrorResponse (List StopSearchResult) :=
  let query := Text.trim (q.getD "").toList
  if query.length < 2 then .error { code := 400, msg := "query must be at least 2 characters\n" }
  else
    match indexes with
    | none => .error internalError
    | some idx =>
      .ok ((idx.search lower (String.ofList query) STOP_SEARCH_NAME_LIMIT).foldl (fun groups s => addStop s groups) [])

end OV.Impl
