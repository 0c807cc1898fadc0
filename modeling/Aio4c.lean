import Aio4c.BufferHistory
import Aio4c.BufferCodec
import Aio4c.QueueRefinement
import Aio4c.SelectorRegistration
import Aio4c.SelectorIteration
import Aio4c.ConnectionLifecycle
import Aio4c.BufferTransfer
import Aio4c.Outbound
import Aio4c.OutboundAccounting
import Aio4c.BufferPool
import Aio4c.Inbound
import Aio4c.InboundFidelity
import Aio4c.Pipeline
import Aio4c.QueueWaiting
import Aio4c.ReaderWakeUp
import Aio4c.ConnectionVerdict
import Aio4c.ThreadLifecycle
import Aio4c.StateLock
import Aio4c.WriteShutdown
import Aio4c.PipelineSteps
import Aio4c.ConnectedFirst
import Aio4c.ClientRelease
import Aio4c.Client
import Aio4c.ClientHandOver
import Aio4c.Library.PlaceCount
import Aio4c.AcceptedPipe
import Aio4c.CloseAccount
import Aio4c.AcceptedRelease
import Aio4c.AcceptedRuns
import Aio4c.QueueDrain
import Aio4c.PoolHeap
import Aio4c.PoolOwnership
import Aio4c.PoolRuns
import Aio4c.TaskBuffers
import Aio4c.TaskOwnership
import Aio4c.SelectorPass
import Aio4c.LockRuns
import Aio4c.EventQueueRefinement
import Aio4c.AcceptorStartUp
import Aio4c.LoggerRuns
import Aio4c.FreedUnused
import Aio4c.BufferBounds
import Aio4c.BufferText
import Aio4c.SelectorRegister
import Aio4c.LogMessage
import Aio4c.WouldBlock
import Aio4c.ThreadTable
import Aio4c.ListRefinement
import Aio4c.ReaderLoad
import Aio4c.AcceptorRelease
import Aio4c.SelectorBackEnds
import Aio4c.LogDump
import Aio4c.ClientRetries
import Aio4c.ClientDelivery
import Aio4c.AcceptorLoop
import Aio4c.AllocHeap
import Aio4c.AllocHeapProperties
import Aio4c.Arguments
import Aio4c.ClientAttempts
import Aio4c.ConditionEvent
import Aio4c.ConditionEventProperties
import Aio4c.Destructors
import Aio4c.EventQueueRelease
import Aio4c.Library.LockOrder
import Aio4c.Library.Teardown
import Aio4c.LockFootprints
import Aio4c.LockOwner
import Aio4c.LockProgress
import Aio4c.ReaderLoop
import Aio4c.ReaderLoopProperties
import Aio4c.ServerRelease
import Aio4c.WorkerLoop
import Aio4c.WriterLoop
