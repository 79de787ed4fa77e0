import UdpAnalyzer.DeltaLaw
import UdpAnalyzer.Lib.Bytes
import UdpAnalyzer.Lib.Json
import UdpAnalyzer.Decode
import UdpAnalyzer.Lib.Ledger
import UdpAnalyzer.Channel.Kernel
import UdpAnalyzer.Channel.Decode
import UdpAnalyzer.Channel.Accounting
import UdpAnalyzer.Channel.EndToEnd
import UdpAnalyzer.Channel.Connections
import UdpAnalyzer.Channel.Cgroup
import UdpAnalyzer.Channel.Attribution
import UdpAnalyzer.Ingress.Inventory
import UdpAnalyzer.Lib.Multiplicity
import UdpAnalyzer.Ingress.Conservation
import UdpAnalyzer.Lib.Method
import UdpAnalyzer.Lifecycle.Attachment
import UdpAnalyzer.Lifecycle.Collector
import UdpAnalyzer.Lifecycle.Ownership
import UdpAnalyzer.Lifecycle.ChannelAttachment
import UdpAnalyzer.Lifecycle.Analyzer
import UdpAnalyzer.Lifecycle.Cleanup
import UdpAnalyzer.Lifecycle.Acquisition
import UdpAnalyzer.Lifecycle.Supervision
import UdpAnalyzer.Lifecycle.Pipeline
import UdpAnalyzer.Lifecycle.ErrorExit
import UdpAnalyzer.Lifecycle.Signals
import UdpAnalyzer.Lib.Files
import UdpAnalyzer.Lib.Url
import UdpAnalyzer.Catalog.UnitText
import UdpAnalyzer.Catalog.Robustness
import UdpAnalyzer.Catalog.UnitNames
import UdpAnalyzer.Channel.Verdict
import UdpAnalyzer.Catalog.Sources
import UdpAnalyzer.Ingress.Kernel
import UdpAnalyzer.Ingress.Datagrams
import UdpAnalyzer.Ingress.DropAccounting
import UdpAnalyzer.Ingress.Decode
import UdpAnalyzer.Layouts
import UdpAnalyzer.Channel.Entry
import UdpAnalyzer.Channel.SingleRecord
import UdpAnalyzer.Channel.TcpState
import UdpAnalyzer.Storage.Schema
import UdpAnalyzer.Storage.Samples
import UdpAnalyzer.Lib.Related
import UdpAnalyzer.Channel.Twins
import UdpAnalyzer.DryRun
import UdpAnalyzer.Filtering
import UdpAnalyzer.Channel.Receives
import UdpAnalyzer.FailedCheckpoints
import UdpAnalyzer.Channel.Repeats
import UdpAnalyzer.Ingress.SocketTables
import UdpAnalyzer.Ingress.ProcFs
import UdpAnalyzer.Ingress.Receivers
import UdpAnalyzer.Ingress.NameFilter
import UdpAnalyzer.Lifecycle.StartUp
import UdpAnalyzer.Catalog.UrlWords
import UdpAnalyzer.Catalog.Comments
import UdpAnalyzer.Catalog.CommentedFiles
import UdpAnalyzer.Catalog.OneUrl
import UdpAnalyzer.Ingress.Cookies
import UdpAnalyzer.Ingress.InetTable
import UdpAnalyzer.Channel.Signature
import UdpAnalyzer.Lifecycle.MapSelection
import UdpAnalyzer.Ingress.Rows
import UdpAnalyzer.Lib.Windows
import UdpAnalyzer.TimeBuckets
import UdpAnalyzer.Lib.History
import UdpAnalyzer.Storage.Writers
import UdpAnalyzer.Lib.Columns
import UdpAnalyzer.Output
import UdpAnalyzer.Lib.Meter
import UdpAnalyzer.Ingress.Delivery
import UdpAnalyzer.Ingress.Printed
import UdpAnalyzer.Ingress.EndToEnd
import UdpAnalyzer.Ingress.DeliveredRows
import UdpAnalyzer.Lib.JsonText
import UdpAnalyzer.Lib.JsonRoundTrip
import UdpAnalyzer.Lib.UrlEncoded
import UdpAnalyzer.Storage.JsonLines
import UdpAnalyzer.Harness.Checks
import UdpAnalyzer.Harness.Runs
import UdpAnalyzer.Loader.Libbpf
import UdpAnalyzer.Loader.Calls
import UdpAnalyzer.Loader.Receive
import UdpAnalyzer.Loader.Channel
import UdpAnalyzer.Loader.Status
import UdpAnalyzer.Storage.ClickHouse
import UdpAnalyzer.Ingress.Freshness
import UdpAnalyzer.Lifecycle.Attribution
import UdpAnalyzer.Lib.Sweep
import UdpAnalyzer.Ingress.RacingDumps
