import Ovlive.Impl.Gtfs.Parse

/-!
# Conditional download (`crates/gtfs/src/download.rs`)

A request with the validators of the archive kept, and what becomes of the file
for the archive: the body is streamed to a temporary file that is renamed over
it. The HTTP client is its answer to a request, as a function of the validators
sent.
-/

namespace OV.Impl

/-- The validators of an archive. -/
structure FeedMeta where
  etag : Option String := none
  lastModified : Option String := none
  deriving DecidableEq

inductive DownloadOutcome
  /-- The archive on disk is still current. -/
  | notModified
  /-- A fresh archive was written. -/
  | fetched (feedMeta : FeedMeta)

/-- An answer of the GTFS server: 304, a status of failure, or an archive. -/
inductive Response
  | notModified
  | failure (status : Nat)
  | success (feedMeta : FeedMeta) (body : GtfsZip)

/-- What a request with validators is answered; an error where it cannot be sent. -/
abbrev HttpClient := FeedMeta → Except String Response

/-- `conditional_download_to`, where a fault names a step of receiving or
writing the body that fails: the file afterwards. -/
def conditionalDownloadTo (client : HttpClient) (fault : Option String) (prev : FeedMeta) (dest : Option GtfsZip) :
    Option GtfsZip × Except String DownloadOutcome :=
  match client prev with
  | .error e => (dest, .error e)
  | .ok .notModified => (dest, .ok .notModified)
  | .ok (.failure _) => (dest, .error "gtfs http status")
  | .ok (.success feedMeta body) =>
    match fault with
    | some e => (dest, .error e)
    | none => (some body, .ok (.fetched feedMeta))

end OV.Impl
