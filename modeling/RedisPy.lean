import RedisPy.Library.Reading
import RedisPy.Library.TokenReader
import RedisPy.Library.Numeral
import RedisPy.Spec.Python
import RedisPy.Spec.SocketBuffer
import RedisPy.Spec.RespParsers
import RedisPy.Spec.AsyncParsers
import RedisPy.Spec.ReplyStream
import RedisPy.Spec.Reply
import RedisPy.Proofs.SocketBuffer
import RedisPy.Proofs.RespRoundTrip
import RedisPy.Proofs.ReplyReaders
import RedisPy.Proofs.SyncParsers
import RedisPy.Proofs.AsyncStream
import RedisPy.Proofs.AsyncParsers
import RedisPy.Proofs.Resumption
import RedisPy.Proofs.PushFrames
import RedisPy.Library.Keyed
import RedisPy.Library.Heap
import RedisPy.Spec.NodesManager
import RedisPy.Proofs.WellFormed
import RedisPy.Proofs.MovedSlots
import RedisPy.Proofs.Topology
import RedisPy.Proofs.Reachable
import RedisPy.Proofs.MovedSlotLaw
import RedisPy.Proofs.SlotFrame
import RedisPy.Library.Lease
import RedisPy.Spec.ClusterExecute
import RedisPy.Spec.ClusterScript
import RedisPy.Proofs.ClusterLeases
import RedisPy.Proofs.ClusterRounds
import RedisPy.Proofs.Redirections
import RedisPy.Library.Course
import RedisPy.Spec.ClusterClient
import RedisPy.Spec.ClusterPipeline
import RedisPy.Spec.PipelineScript
import RedisPy.Library.Wire
import RedisPy.Proofs.ClusterAttempts
import RedisPy.Proofs.SlotLookup
import RedisPy.Spec.ConnectionPool
import RedisPy.Proofs.ConnectionPool
import RedisPy.Proofs.BlockingConnectionPool
import RedisPy.Spec.PubSub
import RedisPy.Proofs.PubSubCalls
import RedisPy.Proofs.PubSubAgreement
import RedisPy.Proofs.PubSubCourses
import RedisPy.Proofs.PubSubWishes
import RedisPy.Spec.AskWatch
import RedisPy.Proofs.AskRedirections
import RedisPy.Proofs.PipelineLeases
import RedisPy.Proofs.PipelineGroups
import RedisPy.Proofs.PipelineResults
import RedisPy.Spec.PipelineTraffic
import RedisPy.Proofs.PipelineRecord
import RedisPy.Proofs.PipelineTraffic
import RedisPy.Spec.PipelineRouting
import RedisPy.Proofs.PipelineRouting
import RedisPy.Library.Interleave
import RedisPy.Spec.AsyncClusterNode
import RedisPy.Proofs.AsyncClusterNode
import RedisPy.Spec.ClientCache
import RedisPy.Proofs.CachedReplies
import RedisPy.Library.Exclusion
import RedisPy.Spec.Lock
import RedisPy.Proofs.Lock
import RedisPy.Proofs.ReplicaReads
import RedisPy.Spec.TopologyCalls
import RedisPy.Proofs.TopologyFrame
import RedisPy.Proofs.StartupNodes
import RedisPy.Spec.AsyncConnectionPool
import RedisPy.Proofs.AsyncConnectionPool
import RedisPy.Proofs.PendingRedirects
import RedisPy.Spec.CacheLocks
import RedisPy.Proofs.CacheLocks
import RedisPy.Proofs.ClusterSurvey
import RedisPy.Proofs.AtomicInitialize
import RedisPy.Proofs.TopologyInvariant
import RedisPy.Spec.AsyncClusterPipeline
import RedisPy.Proofs.AsyncClusterPipeline
import RedisPy.Spec.Text
import RedisPy.Spec.KeyInvalidation
import RedisPy.Proofs.KeyInvalidation
import RedisPy.Spec.Sentinel
import RedisPy.Proofs.Sentinel
import RedisPy.Spec.Retry
import RedisPy.Spec.SentinelConnection
import RedisPy.Proofs.SentinelConnection
import RedisPy.Spec.CommandPacking
import RedisPy.Proofs.CommandPacking
import RedisPy.Spec.Transaction
import RedisPy.Proofs.Transaction
import RedisPy.Spec.Resubscription
import RedisPy.Proofs.Resubscription
import RedisPy.Spec.ShardedMessages
import RedisPy.Proofs.ShardedMessages
import RedisPy.Proofs.ShardedPolling
import RedisPy.Proofs.Retry
import RedisPy.Spec.WatchPipeline
import RedisPy.Proofs.WatchPipeline
import RedisPy.Library.Splitting
import RedisPy.Spec.ClientInfo
import RedisPy.Proofs.ClientInfo
import RedisPy.Spec.SentinelReplies
import RedisPy.Proofs.SentinelReplies
import RedisPy.Library.LruMap
import RedisPy.Spec.CacheEviction
import RedisPy.Proofs.CacheEviction
import RedisPy.Spec.ScanIter
import RedisPy.Proofs.ScanIter
import RedisPy.Spec.SearchResult
import RedisPy.Proofs.SearchResult
import RedisPy.Proofs.FieldEncodings
import RedisPy.Spec.PipelineRounds
import RedisPy.Proofs.PipelineRounds
import RedisPy.Spec.MultiKeyCommands
import RedisPy.Proofs.MultiKeyCommands
import RedisPy.Spec.QueryString
import RedisPy.Proofs.QueryPieces
import RedisPy.Proofs.QueryString
import RedisPy.Spec.CommandRouting
import RedisPy.Proofs.CommandRouting
import RedisPy.Spec.ClusterNodes
import RedisPy.Proofs.ClusterNodes
import RedisPy.Spec.GraphParams
import RedisPy.Proofs.GraphParams
import RedisPy.Spec.Monitor
import RedisPy.Proofs.Monitor
import RedisPy.Library.Forest
import RedisPy.Spec.ExecutionPlan
import RedisPy.Proofs.OperationStack
import RedisPy.Proofs.OperationTree
import RedisPy.Proofs.ExecutionPlan
import RedisPy.Proofs.KeySelection
import RedisPy.Proofs.KeyExtraction
import RedisPy.Spec.SharedCache
import RedisPy.Proofs.SharedCache
import RedisPy.Spec.CachedReads
import RedisPy.Proofs.CachedTurns
import RedisPy.Proofs.CachedReads
import RedisPy.Library.Optimistic
import RedisPy.Spec.OptimisticTransactions
import RedisPy.Proofs.OptimisticTransactions
import RedisPy.Spec.Handshake
import RedisPy.Spec.PooledCalls
import RedisPy.Proofs.Handshake
import RedisPy.Proofs.PooledCalls
import RedisPy.Spec.SentRequests
import RedisPy.Proofs.SentRequests
import RedisPy.Spec.SingleConnection
import RedisPy.Proofs.SingleConnection
import RedisPy.Spec.SentinelPool
import RedisPy.Proofs.SentinelPool
