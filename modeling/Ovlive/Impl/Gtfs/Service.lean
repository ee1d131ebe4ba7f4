import Ovlive.Impl.Gtfs.Parse
import Ovlive.Impl.Gtfs.Stops

/-!
# The live feed (`crates/gtfs/src/lib.rs`)

The service that holds the feed, the swap of a newly parsed one, the indexes
rebuilt from it, and the delay until the next check for a feed.
-/

namespace OV.Impl

/-- The loaded feed and the indexes built from it. -/
structure GtfsService where
  store : Option GtfsStore := none
  stops : Option StopIndexes := none

namespace GtfsService

/-- `swap`. -/
def swap (service : GtfsService) (store : GtfsStore) : GtfsService := { service with store := some store }

/-- The service as the enricher of the live state: the loaded feed's, if any. -/
def enricher [Platform] (service : GtfsService) : Enricher :=
  match service.store with
  | some store => store.enricher
  | none => NoEnricher

/-- `rebuild_stop_indexes`: nothing is built without a feed. -/
def rebuildStopIndexes (sort : CallSort) (service : GtfsService) (date : NaiveDate) : GtfsService :=
  match service.store with
  | some store => { service with stops := some (StopIndexes.build sort store date) }
  | none => service

end GtfsService

/-- `parse_zip_file`: a file that cannot be opened is `none`. -/
def parseZipFile (path : String) (file : Option GtfsZip) : Except String GtfsStore :=
  match file with
  | none => .error ("open " ++ path)
  | some zip => Gtfs.parseReader zip

/-- `load_and_swap`: the service afterwards, and the feed. -/
def loadAndSwap (service : GtfsService) (path : String) (file : Option GtfsZip) :
    GtfsService × Except String GtfsStore :=
  match parseZipFile path file with
  | .error e => (service, .error e)
  | .ok store => ({ service with store := some store }, .ok store)

/-- `service_date`. -/
def serviceDate (now : Instant) (tz : Tz) : NaiveDate := tz.date now

/-- `secs_since_local_midnight`: whole seconds on the zone's clock. -/
def secsSinceLocalMidnight (now : Instant) (tz : Tz) : Int32 :=
  Int32.ofInt (tz.clock now % (secsPerDay * nanos) / nanos)

/-- `seconds_until_next`: from an instant to the next `hour:00` of the zone's
clock. Where the clock of the day skips or repeats it, and where it is past, a
day of 24 hours is added; the delay is cut to whole seconds. -/
def secondsUntilNext (now : Instant) (hour : Nat) (tz : Tz) : Int :=
  let reading := (tz.date now).days * secsPerDay * nanos + hour * 3600 * nanos
  let target := ((if hour < 24 then tz.single reading else none).getD now)
  let target := if target ≤ now then target + secsPerDay * nanos else target
  max (numSeconds (target - now)) 0

end OV.Impl
