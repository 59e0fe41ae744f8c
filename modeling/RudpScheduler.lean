import RudpScheduler.Construction.Aggregator
import RudpScheduler.Construction.AggregatorSteps
import RudpScheduler.Construction.Channels
import RudpScheduler.Construction.Cluster
import RudpScheduler.Construction.HashSearch
import RudpScheduler.Construction.History
import RudpScheduler.Construction.Host
import RudpScheduler.Construction.Lossy
import RudpScheduler.Construction.Metrics
import RudpScheduler.Construction.Node
import RudpScheduler.Construction.Pipeline
import RudpScheduler.Construction.Recover
import RudpScheduler.Construction.Rudp.Addr
import RudpScheduler.Construction.Rudp.Client
import RudpScheduler.Construction.Rudp.ClientSteps
import RudpScheduler.Construction.Rudp.Conn
import RudpScheduler.Construction.Rudp.Link
import RudpScheduler.Construction.Rudp.Net
import RudpScheduler.Construction.Rudp.Packet
import RudpScheduler.Construction.Rudp.Protocol
import RudpScheduler.Construction.Rudp.SendSide
import RudpScheduler.Construction.Rudp.Server
import RudpScheduler.Construction.Rudp.ServerSteps
import RudpScheduler.Construction.Split
import RudpScheduler.Construction.System
import RudpScheduler.Construction.SystemSteps
import RudpScheduler.Construction.Tcp
import RudpScheduler.Construction.Wal
import RudpScheduler.Construction.WalCodec
import RudpScheduler.Construction.WalFile
import RudpScheduler.Construction.Wire
import RudpScheduler.Construction.WireCodec
import RudpScheduler.Construction.WorkerLoop
import RudpScheduler.Framework.Bufio
import RudpScheduler.Framework.Bytes
import RudpScheduler.Framework.Calls
import RudpScheduler.Framework.Checked
import RudpScheduler.Framework.FileSystem
import RudpScheduler.Framework.Float64
import RudpScheduler.Framework.Folds
import RudpScheduler.Framework.GoMap
import RudpScheduler.Framework.Heap
import RudpScheduler.Framework.Int64
import RudpScheduler.Framework.PrefixCode
import RudpScheduler.Framework.Register
import RudpScheduler.Framework.Runs
import RudpScheduler.Properties.AggregatorInvariant
import RudpScheduler.Properties.Attachment
import RudpScheduler.Properties.Boot
import RudpScheduler.Properties.ClusterAnswers
import RudpScheduler.Properties.Compaction
import RudpScheduler.Properties.Counters
import RudpScheduler.Properties.DirtyFlag
import RudpScheduler.Properties.ExactSplit
import RudpScheduler.Properties.ExactlyOnce
import RudpScheduler.Properties.HashSearch
import RudpScheduler.Properties.Histories
import RudpScheduler.Properties.LogLives
import RudpScheduler.Properties.Lossy
import RudpScheduler.Properties.MessageBound
import RudpScheduler.Properties.MetricTotals
import RudpScheduler.Properties.NoBacklog
import RudpScheduler.Properties.NoDeadlock
import RudpScheduler.Properties.NoPanic
import RudpScheduler.Properties.NoTaskLost
import RudpScheduler.Properties.OneWorker
import RudpScheduler.Properties.OwnChunk
import RudpScheduler.Properties.Partition
import RudpScheduler.Properties.PipelineInvariant
import RudpScheduler.Properties.Recovery
import RudpScheduler.Properties.Refinement
import RudpScheduler.Properties.Representation
import RudpScheduler.Properties.Resume
import RudpScheduler.Properties.Rewrite
import RudpScheduler.Properties.RightAnswers
import RudpScheduler.Properties.Rudp.Backoff
import RudpScheduler.Properties.Rudp.ClientCalls
import RudpScheduler.Properties.Rudp.ClientInvariant
import RudpScheduler.Properties.Rudp.CloseFlush
import RudpScheduler.Properties.Rudp.Delivery
import RudpScheduler.Properties.Rudp.EndToEnd
import RudpScheduler.Properties.Rudp.Flow
import RudpScheduler.Properties.Rudp.InOrder
import RudpScheduler.Properties.Rudp.KeepAlive
import RudpScheduler.Properties.Rudp.NetLink
import RudpScheduler.Properties.Rudp.OrderedDelivery
import RudpScheduler.Properties.Rudp.Packet
import RudpScheduler.Properties.Rudp.Routing
import RudpScheduler.Properties.Rudp.SendWindow
import RudpScheduler.Properties.Rudp.ServerInvariant
import RudpScheduler.Properties.Rudp.Shutdown
import RudpScheduler.Properties.Rudp.Tables
import RudpScheduler.Properties.SystemInvariant
import RudpScheduler.Properties.TaskCopies
import RudpScheduler.Properties.TcpDelivery
import RudpScheduler.Properties.WalCodec
import RudpScheduler.Properties.WalFile
import RudpScheduler.Properties.WireCodec
import RudpScheduler.Properties.WorkerDiscipline
