import NetworkModule.Lib.Machine
import NetworkModule.Lib.FifoPool
import NetworkModule.Types
import NetworkModule.Network.TimeoutSweep
import NetworkModule.Network.SweepTimer
import NetworkModule.Concurrency.ExecutionQueue
import NetworkModule.Concurrency.ScopeAccounting
import NetworkModule.Network.SessionTeardown
import NetworkModule.Network.SessionSend
import NetworkModule.Network.SendPipeline
import NetworkModule.Network.PacketFraming
import NetworkModule.Network.PacketHandlers
import NetworkModule.Network.Removal
import NetworkModule.Network.EventOrder
import NetworkModule.Platforms.EpollSend
import NetworkModule.Platforms.EpollRecv
import NetworkModule.Platforms.IOUring
import NetworkModule.Platforms.IOUringStream
import NetworkModule.DBServer.WorkerOrder
import NetworkModule.DBServer.Routing
import NetworkModule.DBServer.Stranding
import NetworkModule.DBServer.Completion
import NetworkModule.TestServer.ExactlyOnce
import NetworkModule.TestServer.LinkFraming
import NetworkModule.TestServer.RecordPairing
import NetworkModule.TestClient.Reconnect
import NetworkModule.Database.BootstrapOnce
import NetworkModule.Wal.Durability
import NetworkModule.Wal.Acknowledged
import NetworkModule.Wal.PlayerData
import NetworkModule.Network.SessionReuse
import NetworkModule.Network.SessionIdle
import NetworkModule.Concurrency.QueueRefinement
import NetworkModule.Network.SlotPartition
import NetworkModule.Concurrency.TimerQueue
import NetworkModule.Lib.Transducer
import NetworkModule.Database.Statements
import NetworkModule.Database.ConnectionPool
import NetworkModule.Platforms.RioSend
import NetworkModule.Platforms.RioSockets
import NetworkModule.Wal.RoundTrip
import NetworkModule.Wal.TornLine
import NetworkModule.DBServer.QueryPacket
import NetworkModule.Network.BadHeader
import NetworkModule.Network.DeliveryAfterClose
import NetworkModule.Concurrency.ScopeDrain
import NetworkModule.Concurrency.QueueWaits
import NetworkModule.Lib.FlagWait
import NetworkModule.Concurrency.TimerShutdown
import NetworkModule.Wal.SleepingWorkers
import NetworkModule.Wal.DrainCallbacks
import NetworkModule.Lib.Tickets
import NetworkModule.Wal.LiveOrder
import NetworkModule.Network.SendSlots
import NetworkModule.Platforms.EpollEndOfStream
import NetworkModule.Platforms.EpollPartialSend
import NetworkModule.Platforms.IOUringAccounting
import NetworkModule.Platforms.Kqueue
import NetworkModule.Concurrency.TimerCancel
import NetworkModule.Concurrency.TimerFiring
import NetworkModule.Lib.BinaryHeap
import NetworkModule.Concurrency.TimerOrder
import NetworkModule.Utils.ThreadPool
import NetworkModule.Network.SessionLimit
import NetworkModule.Database.ConnectionReturns
import NetworkModule.Utils.KeySequence
import NetworkModule.DBServer.PingLatency
import NetworkModule.Lib.ByteCodec
import NetworkModule.Protocols.BaseMessageHandler
import NetworkModule.Network.SendAccounting
import NetworkModule.Protocols.PingPong
import NetworkModule.TestClient.Reassembly
import NetworkModule.Lib.Stores
import NetworkModule.Database.ParamLayout
import NetworkModule.Memory.BufferPools
import NetworkModule.Database.Availability
import NetworkModule.Database.BatchExecution
import NetworkModule.Lib.Terminated
import NetworkModule.Database.ManifestPreimage
import NetworkModule.Lib.RunningSummary
import NetworkModule.DBServer.LatencyAgreement
import NetworkModule.Lib.SharedMutex
import NetworkModule.Network.EventBus
import NetworkModule.Network.EventBusDelivery
import NetworkModule.Platforms.Iocp
import NetworkModule.Platforms.IocpConservation
import NetworkModule.Platforms.IocpEntries
import NetworkModule.Lib.Transactions
import NetworkModule.TestServer.LoginEvents
import NetworkModule.TestServer.LoginAtomicity
import NetworkModule.DBServer.OrderedTaskQueue
import NetworkModule.DBServer.LatencyLog
import NetworkModule.TestClient.EndToEnd
