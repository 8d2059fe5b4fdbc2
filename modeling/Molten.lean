import Molten.Chain.LevelId
import Molten.Chain.Propagation
import Molten.Chain.TraceId
import Molten.Cluster.SpanId
import Molten.Ctrl.MinuteLimit
import Molten.Ctrl.Status
import Molten.Intercept.Capture
import Molten.Intercept.Failure
import Molten.Intercept.Isolation
import Molten.Intercept.Mysqli
import Molten.Process.Unsampled
import Molten.Request.Batch
import Molten.Request.CurlHeaders
import Molten.Request.Numbering
import Molten.Shm.Counters
import Molten.Shm.Lock
import Molten.Collector.Server
import Molten.Log.HttpBody
import Molten.Report.Accounting
import Molten.Intercept.Reload
import Molten.Request.Ownership
import Molten.Request.Intervals
import Molten.Log.WriteLoop
import Molten.Collector.Response
import Molten.Ctrl.Switch
import Molten.Intercept.ArgsSummary
import Molten.Request.MultiPairs
import Molten.Chain.QueryTrim
import Molten.Intercept.Hit
import Molten.Log.SelfLog
import Molten.Collector.Registration
import Molten.Collector.ServiceName
import Molten.Chain.LocalIp
import Molten.Span.Stack
import Molten.Intercept.AddServers
import Molten.Log.SinkPath
import Molten.Collector.ServiceBody
import Molten.Log.SharedFiles
import Molten.Collector.StartUp
import Molten.Collector.CJsonDuplicate
import Molten.Collector.CJsonBuffered
import Molten.Collector.CJsonMinify
import Molten.Process.Documents
