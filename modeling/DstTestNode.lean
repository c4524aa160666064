import DstTestNode.Library.LittleEndian
import DstTestNode.Library.CountingMap
import DstTestNode.Library.Machine
import DstTestNode.Library.Distributed
import DstTestNode.Library.LeastCost
import DstTestNode.Library.Binary64
import DstTestNode.Library.Regex
import DstTestNode.Library.Decimal
import DstTestNode.Library.Tally
import DstTestNode.Library.Mean
import DstTestNode.Library.Running
import DstTestNode.Library.Attempts
import DstTestNode.Library.Slices
import DstTestNode.Library.Rounds
import DstTestNode.Library.Json
import DstTestNode.Library.Segments
import DstTestNode.Rust.Checked
import DstTestNode.Rust.Metrics
import DstTestNode.Rust.Handler
import DstTestNode.Rust.Publish
import DstTestNode.Rust.Fragments
import DstTestNode.Rust.Verdict
import DstTestNode.Rust.MessageIds
import DstTestNode.Rust.Fragmentation
import DstTestNode.Rust.Accounting
import DstTestNode.Rust.PanicFree
import DstTestNode.Rust.EventLoops
import DstTestNode.Rust.PublishProtocol
import DstTestNode.Rust.PublishCounter
import DstTestNode.Rust.PublishSafety
import DstTestNode.Rust.PublishExact
import DstTestNode.Go.Tracer
import DstTestNode.Go.MeshGauge
import DstTestNode.Go.Counters
import DstTestNode.Go.RpcAccounting
import DstTestNode.Go.Router
import DstTestNode.Go.JoinedTopics
import DstTestNode.Go.Publish
import DstTestNode.Go.PublishCall
import DstTestNode.Go.FragmentNumbers
import DstTestNode.Go.MessageHandler
import DstTestNode.Nim.Strutils
import DstTestNode.Nim.GossipsubEnv
import DstTestNode.Nim.GossipsubPublish
import DstTestNode.Shadow.Python
import DstTestNode.Shadow.Topology
import DstTestNode.Shadow.TopologyEdges
import DstTestNode.Shadow.TopologyNodes
import DstTestNode.Shadow.TopologyShape
import DstTestNode.Shadow.Latency
import DstTestNode.Shadow.HostTable
import DstTestNode.Shadow.Readback
import DstTestNode.Shadow.RequestedNetwork
import DstTestNode.Shadow.Awk
import DstTestNode.Shadow.SummaryLatency
import DstTestNode.Shadow.LatencyLog
import DstTestNode.Shadow.SummaryEnd
import DstTestNode.Shadow.LatencyRows
import DstTestNode.Shadow.Spread
import DstTestNode.Shadow.Statistics
import DstTestNode.Shadow.Figures
import DstTestNode.Shadow.ShadowLog
import DstTestNode.Shadow.Totals
import DstTestNode.Shadow.Extremes
import DstTestNode.Nodes.TopicHealth
import DstTestNode.Nodes.Reassembly
import DstTestNode.Nodes.Verdicts
import DstTestNode.Nodes.Traffic
import DstTestNode.Nodes.CounterMeaning
import DstTestNode.Nodes.Dialing
import DstTestNode.Rust.Env
import DstTestNode.Rust.Candidates
import DstTestNode.Rust.Dial
import DstTestNode.Go.Dial
import DstTestNode.Nim.Dial
import DstTestNode.Nodes.Dials
import DstTestNode.Nim.Ping
import DstTestNode.Nim.PingSweeps
import DstTestNode.Nim.PingSchedule
import DstTestNode.Nim.IdleTimeout
import DstTestNode.Nim.Bootstraps
import DstTestNode.Nim.BootstrapLimits
import DstTestNode.Library.Backoff
import DstTestNode.Nim.BootstrapTimes
import DstTestNode.Nim.BootstrapWindows
import DstTestNode.Nim.BootstrapGivesUp
import DstTestNode.Nim.PublishAnswers
import DstTestNode.Nim.PeerDetails
import DstTestNode.Go.Env
import DstTestNode.Nodes.PodIndex
import DstTestNode.Nim.ServiceDiscoveryEnv
import DstTestNode.Nim.UsableConfig
import DstTestNode.Library.Reassembly
import DstTestNode.Nim.MessageHandler
import DstTestNode.Nim.GossipsubReceive
import DstTestNode.Nim.GossipsubFragments
import DstTestNode.Nodes.NimTraffic
import DstTestNode.Nodes.OtherTraffic
import DstTestNode.Library.Tasks
import DstTestNode.Go.Server
import DstTestNode.Nim.ConnmanagerEnv
import DstTestNode.Nim.ConnmanagerHubs
import DstTestNode.Shadow.LogReport
import DstTestNode.Nodes.LatencyReport
import DstTestNode.Nim.Connmanager
import DstTestNode.Nim.RegressionNode
import DstTestNode.Library.Rounding
import DstTestNode.Nim.PublishClock
import DstTestNode.Nodes.ReportedDelays
import DstTestNode.Library.Retries
import DstTestNode.Rust.Connect
import DstTestNode.Go.Connect
import DstTestNode.Nim.Connect
import DstTestNode.Nodes.Configuration
import DstTestNode.Nodes.Simulator
import DstTestNode.Nodes.SimulatedDials
import DstTestNode.Nodes.SimulatedNetwork
