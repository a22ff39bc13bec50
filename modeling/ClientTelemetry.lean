import ClientTelemetry.Offline.Handover
import ClientTelemetry.Offline.Flush
import ClientTelemetry.Offline.Accept
import ClientTelemetry.System.Verdict
import ClientTelemetry.Api.Loggers
import ClientTelemetry.Offline.Filter
import ClientTelemetry.Offline.Interchange
import ClientTelemetry.Api.Teardown
import ClientTelemetry.Api.DropPii
import ClientTelemetry.Api.Guests
import ClientTelemetry.Tpm.ProfileLoads
import ClientTelemetry.Tpm.Pauses
import ClientTelemetry.Tpm.PendingLimit
import ClientTelemetry.Tpm.InTime
import ClientTelemetry.Tpm.Latencies
import ClientTelemetry.Tpm.Timers
import ClientTelemetry.Offline.LogSession
import ClientTelemetry.Bond.CompactBinary
import ClientTelemetry.Offline.RamLimit
import ClientTelemetry.Offline.SizeLimit
import ClientTelemetry.Offline.Statements
import ClientTelemetry.Api.StoredLatency
import ClientTelemetry.Api.Parsing
import ClientTelemetry.Packager.Body
import ClientTelemetry.Stats.Breakdowns
import ClientTelemetry.Offline.NoRamQueue
import ClientTelemetry.Config.Merge
import ClientTelemetry.Pal.Order
import ClientTelemetry.Pal.Handles
import ClientTelemetry.System.Lifecycle
import ClientTelemetry.Api.Scope
import ClientTelemetry.Api.DataViewers
import ClientTelemetry.Http.ClientsApart
import ClientTelemetry.Offline.FullNotice
import ClientTelemetry.Offline.IdLists
import ClientTelemetry.Tpm.Backoff
import ClientTelemetry.Offline.BatchTransfer
