import PhxQueue.Lib.Run
import PhxQueue.Lib.Cas
import PhxQueue.Lib.Pool
import PhxQueue.Lib.Settle
import PhxQueue.Lib.WriteLog
import PhxQueue.Lib.Replayed
import PhxQueue.Comm
import PhxQueue.Lock.LockDb
import PhxQueue.Lock.LockMgr
import PhxQueue.Lock.LockSM
import PhxQueue.Lock.Log
import PhxQueue.Lock.Recovery
import PhxQueue.Lock.Server
import PhxQueue.Lock.Replica
import PhxQueue.Lock.StorageError
import PhxQueue.Lock.Checkpoint
import PhxQueue.Lib.Lease
import PhxQueue.Lock.Service
import PhxQueue.Scheduler.KeepMaster
import PhxQueue.Scheduler.OneMaster
import PhxQueue.Scheduler.TopicData
import PhxQueue.Scheduler.LoadBalance
import PhxQueue.Consumer.HeartBeatLock
import PhxQueue.Consumer.ExclusiveLock
import PhxQueue.Config.TopicConfig
import PhxQueue.Store.StoreMeta
import PhxQueue.Store.SyncCtrl
import PhxQueue.Store.SyncMessages
import PhxQueue.Store.Threads
import PhxQueue.Store.Overlap
import PhxQueue.Store.BaseMgr
import PhxQueue.Store.Replica
import PhxQueue.Store.Retention
import PhxQueue.Store.Checkpoint
import PhxQueue.Lock.Keys
import PhxQueue.Lock.Refinement
import PhxQueue.Lock.CasLaw
import PhxQueue.Store.Cursors
import PhxQueue.Config.StoreConfig
import PhxQueue.Consumer.AllQueues
import PhxQueue.Consumer.AfterConsume
import PhxQueue.Comm.MasterClient
import PhxQueue.Comm.FindMaster
import PhxQueue.Producer.Enqueue
import PhxQueue.Producer.Truthful
import PhxQueue.Producer.BatchHelper
import PhxQueue.Store.CheckRequest
import PhxQueue.Producer.BatchLimit
import PhxQueue.Producer.Batching
import PhxQueue.Producer.Selector
import PhxQueue.Producer.QueueRank
import PhxQueue.Producer.SelectorThread
import PhxQueue.Producer.StoreRetry
import PhxQueue.Producer.Settling
import PhxQueue.Consumer.HandOver
import PhxQueue.Consumer.Sync
import PhxQueue.Lib.Bisect
import PhxQueue.Store.Replay
import PhxQueue.Store.Passes
import PhxQueue.Store.Delayed
import PhxQueue.Store.Rewind
import PhxQueue.Store.Redeliver
import PhxQueue.Store.Delivery
import PhxQueue.Store.Cluster
import PhxQueue.Store.Acknowledge
import PhxQueue.Lib.OrderedMap
import PhxQueue.Lib.HashRing
import PhxQueue.Lib.Joins
import PhxQueue.Comm.Utils
import PhxQueue.Consumer.Partition
import PhxQueue.Consumer.Resend
import PhxQueue.Consumer.Routing
import PhxQueue.Store.MetaQueue
import PhxQueue.Store.Adding
import PhxQueue.Store.Sound
import PhxQueue.Scheduler.Weights
import PhxQueue.Scheduler.Reload
import PhxQueue.Lib.Bracket
import PhxQueue.Consumer.RetryCount
import PhxQueue.Producer.ExactRequests
import PhxQueue.Config.Rebuild
import PhxQueue.Producer.TopicIndexes
import PhxQueue.Consumer.Buckets
import PhxQueue.Consumer.Dispatch
import PhxQueue.Lock.Cleaning
import PhxQueue.Lib.Traced
import PhxQueue.Store.Bounds
import PhxQueue.Consumer.FreqMan
import PhxQueue.Consumer.FreqBounds
import PhxQueue.Consumer.SyncRetry
import PhxQueue.Lib.DirTree
import PhxQueue.Comm.FileUtil
import PhxQueue.Comm.TravelDir
import PhxQueue.Comm.CopyTree
import PhxQueue.Comm.ClearTree
import PhxQueue.Lock.LoadCheckpoint
import PhxQueue.Lib.RoundRobin
import PhxQueue.Lib.HashChain
import PhxQueue.Lib.Scan
import PhxQueue.Lock.LoopKey
import PhxQueue.Store.DequeueCrc
import PhxQueue.Comm.IniParser
import PhxQueue.Comm.IniContent
import PhxQueue.Comm.FileLoader
import PhxQueue.Config.Load
import PhxQueue.Lib.Project
import PhxQueue.Lib.MappedCell
import PhxQueue.Store.SyncFile
import PhxQueue.Store.CheckPointStat
import PhxQueue.Lib.Budget
import PhxQueue.Store.GetLimit
import PhxQueue.Consumer.Process
import PhxQueue.Consumer.AddrScales
import PhxQueue.Consumer.Fleet
import PhxQueue.Consumer.FreqLimits
import PhxQueue.Lib.Register
import PhxQueue.Lock.Strings
import PhxQueue.Comm.KeepMasterThread
import PhxQueue.Comm.CheckMaster
import PhxQueue.Comm.MultiProc
import PhxQueue.Lib.Framing
import PhxQueue.Comm.NotifierPool
import PhxQueue.Config.GlobalConfig
import PhxQueue.Config.Lookups
