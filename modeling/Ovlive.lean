import Ovlive.Proof.Ingest.Restarted
import Ovlive.Framework.Durable
import Ovlive.Impl.Restart
import Ovlive.Proof.Realtime.Reconnect
import Ovlive.Proof.Realtime.Delivered
import Ovlive.Impl.Realtime.Streams
import Ovlive.Proof.Api.Keys
import Ovlive.Proof.Api.Limits
import Ovlive.Proof.Api.Tenants
import Ovlive.Proof.Api.Admins
import Ovlive.Proof.Api.Handlers
import Ovlive.Impl.Api.Accounts
import Ovlive.Impl.Persist.Db
import Ovlive.Framework.Bucket
import Ovlive.Framework.Tasks
import Ovlive.Proof.Stream.Carried
import Ovlive.Proof.Client.Written
import Ovlive.Proof.Client.Spelled
import Ovlive.Proof.Client.Wired
import Ovlive.Impl.Client.Proto
import Ovlive.Impl.Contract
import Ovlive.Framework.Wire
import Ovlive.Framework.Ieee
import Ovlive.Proof.Api.Auth
import Ovlive.Proof.Api.Proxied
import Ovlive.Proof.Api.Boards
import Ovlive.Proof.Api.Axis
import Ovlive.Proof.Api.Window
import Ovlive.Proof.Core.Ends
import Ovlive.Proof.Core.Heard
import Ovlive.Proof.Gtfs.Calendar
import Ovlive.Proof.Gtfs.Dwell
import Ovlive.Proof.Gtfs.Gaps
import Ovlive.Proof.Gtfs.Trains
import Ovlive.Proof.Gtfs.Joined
import Ovlive.Proof.Gtfs.Parse
import Ovlive.Proof.Gtfs.Refresh
import Ovlive.Proof.Gtfs.Rollover
import Ovlive.Proof.Gtfs.Stops
import Ovlive.Proof.Api.ServiceDay
import Ovlive.Proof.Api.StopSearch
import Ovlive.Proof.Gtfs.Layout
import Ovlive.Proof.Gtfs.Midnight
import Ovlive.Proof.Gtfs.Nearest
import Ovlive.Proof.Stream.Converge
import Ovlive.Proof.Stream.Gone
import Ovlive.Proof.Stream.Identity
import Ovlive.Proof.Stream.Folds
import Ovlive.Proof.Stream.Stale
import Ovlive.Proof.Realtime.Curve
import Ovlive.Proof.Realtime.Ghosts
import Ovlive.Proof.Realtime.Isolated
import Ovlive.Proof.Realtime.Leading
import Ovlive.Proof.Ingest.Follow
import Ovlive.Proof.Ingest.Punctual
import Ovlive.Proof.Ingest.Days
import Ovlive.Proof.Ingest.Matched
import Ovlive.Proof.Boot.Bootstrapped
import Ovlive.Proof.Boot.Rebuilt
import Ovlive.Proof.Client.Heartbeat
import Ovlive.Proof.Client.TripPlan
import Ovlive.Proof.Client.Settles
import Ovlive.Proof.Client.Offered
import Ovlive.Proof.Client.Polls
import Ovlive.Proof.Client.Covered
import Ovlive.Proof.Realtime.Heading
import Ovlive.Proof.Client.Ahead
import Ovlive.Proof.Api.TypeFilter
import Ovlive.Proof.Api.BoxParam
import Ovlive.Proof.Api.LegacyViewport
import Ovlive.Proof.Api.Slivers
import Ovlive.Proof.Api.LegacyIds
import Ovlive.Proof.Gtfs.Wrapped
