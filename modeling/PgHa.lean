import PgHa.Cluster.Succession
import PgHa.Effect.Behaviour
import PgHa.Effect.Threads
import PgHa.Gcp.Network
import PgHa.Daemon
import PgHa.Daemon.Acceptance
import PgHa.Daemon.Authentication
import PgHa.Daemon.Efm
import PgHa.Daemon.Grace
import PgHa.Daemon.Health
import PgHa.Daemon.Maintenance
import PgHa.Daemon.MountUsers
import PgHa.Daemon.Replies
import PgHa.Daemon.Segments
import PgHa.Ha.Abort
import PgHa.Heartbeat.Exchange
import PgHa.Heartbeat.Format
import PgHa.Heartbeat.Reception
import PgHa.Heartbeat.Silence
import PgHa.Ha.HandOff
import PgHa.Ha.Itinerary
import PgHa.Ha.Leftovers
import PgHa.Ha.PidFile
import PgHa.Ha.Promotion
import PgHa.Ha.RateLimit
import PgHa.Ha.Release
import PgHa.Ha.Transitions
import PgHa.Ha.Trigger
import PgHa.Monitor.Debounce
import PgHa.Monitor.Freshness
import PgHa.Gcp.AliasLaws
import PgHa.Gcp.AliasMove
import PgHa.Gcp.AliasRace
import PgHa.Gcp.DeviceName
import PgHa.Gcp.DiskMatch
import PgHa.Gcp.Fencing
import PgHa.Gcp.HolderQuery
import PgHa.Gcp.Mounts
import PgHa.Gcp.Polling
import PgHa.Cluster.Elected
import PgHa.Cluster.Race
import PgHa.Cluster.Restart
import PgHa.Cluster.ReportedRelease
import PgHa.Cluster.Takeover
import PgHa.Config.RoundTrip
import PgHa.Ctl.Send
