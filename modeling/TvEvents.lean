import TvEvents.Metrics.Percentile
import TvEvents.Library.Quantile
import TvEvents.Metrics.ErrorLog
import TvEvents.Cache.Freshness
import TvEvents.Cache.TornFile
import TvEvents.Delivery.HashFree
import TvEvents.Merge.Lossless
import TvEvents.Merge.Reference
import TvEvents.App.Middleware
import TvEvents.App.Ops
import TvEvents.Library.Coroutines
import TvEvents.Library.BoundedDeque
import TvEvents.Legacy.CacheParity
import TvEvents.Legacy.Blacklist
import TvEvents.Merge.StartTime
import TvEvents.Merge.PanelState
import TvEvents.Merge.Envelope
import TvEvents.Accept.Answered
import TvEvents.Accept.PanelGrammar
import TvEvents.Legacy.Validation
import TvEvents.Accept.Faults
import TvEvents.Accept.TunerGrammar
import TvEvents.Accept.RequiredParams
import TvEvents.Cache.TypedIds
import TvEvents.Python.FloatRounding
import TvEvents.Accept.Timestamps
import TvEvents.Library.OrderedMap
import TvEvents.Library.Result
import TvEvents.Library.FirstFailure
import TvEvents.Library.Runs
import TvEvents.Python.Float
import TvEvents.Python.Value
import TvEvents.Python.Runtime
import TvEvents.App.Exceptions
import TvEvents.App.Dynamic
import TvEvents.App.Checks
import TvEvents.App.EventType
import TvEvents.JsonText.Dumps
import TvEvents.JsonText.Loads
import TvEvents.JsonText.StringRoundTrip
import TvEvents.JsonText.IdListRoundTrip
import TvEvents.App.Validation
import TvEvents.App.Blacklist
import TvEvents.App.Obfuscation
import TvEvents.App.Output
import TvEvents.App.Routes
import TvEvents.Merge.Leaves
import TvEvents.Merge.OutputWrites
import TvEvents.Merge.Generate
import TvEvents.Delivery.Plan
import TvEvents.Delivery.Protocol
import TvEvents.Accept.Accepted
import TvEvents.Accept.Sufficient
import TvEvents.Merge.Decision
import TvEvents.Delivery.Failing
import TvEvents.Delivery.Identity
import TvEvents.Delivery.Redaction
import TvEvents.Cache.Machine
import TvEvents.Cache.Outage
import TvEvents.Cache.FileWrite
import TvEvents.Cache.Coherence
import TvEvents.Legacy.EventType
import TvEvents.Legacy.Firehose
import TvEvents.Legacy.Writes
import TvEvents.Legacy.Parity
import TvEvents.Legacy.Acceptance
import TvEvents.Metrics.Handlers
import TvEvents.Metrics.Counters
import TvEvents.Legacy.FanOut
import TvEvents.Delivery.Decoding
import TvEvents.Serving.PostLog
import TvEvents.Serving.Authentication
import TvEvents.Serving.Failover
import TvEvents.Legacy.Migration
import TvEvents.Legacy.Equivalence
import TvEvents.Serving.Completion
import TvEvents.JsonText.Printable
import TvEvents.Legacy.Pod
import TvEvents.Legacy.TornPod
