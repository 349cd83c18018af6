import KubeMQ.Lts.Basic
import KubeMQ.Lts.Lock
import KubeMQ.Lts.History
import KubeMQ.Lts.Machine
import KubeMQ.Lts.Monitor
import KubeMQ.Lts.Condition
import KubeMQ.Num.Checked
import KubeMQ.Num.Double
import KubeMQ.Text.Digits
import KubeMQ.Text.Strings
import KubeMQ.Json.Value
import KubeMQ.Json.Records
import KubeMQ.Crc.Reflected
import KubeMQ.Types.Status
import KubeMQ.Types.Uuid
import KubeMQ.Types.UuidFormat
import KubeMQ.Types.Proto
import KubeMQ.Types.Validation
import KubeMQ.Types.Message
import KubeMQ.Types.Outgoing
import KubeMQ.Types.Queue
import KubeMQ.Thread.Join
import KubeMQ.Thread.Once
import KubeMQ.StreamHandle.Model
import KubeMQ.StreamHandle.Inversion
import KubeMQ.StreamHandle.Close
import KubeMQ.StreamHandle.Writes
import KubeMQ.StreamHandle.Send
import KubeMQ.StreamHandle.Reentrant
import KubeMQ.StreamHandle.Calls
import KubeMQ.StreamHandle.Results
import KubeMQ.StreamHandle.Settling
import KubeMQ.Downstream.Model
import KubeMQ.Downstream.Inversion
import KubeMQ.Downstream.Calls
import KubeMQ.Downstream.Correlation
import KubeMQ.Downstream.HalfClose
import KubeMQ.Downstream.Poll
import KubeMQ.Downstream.Settlements
import KubeMQ.Downstream.RequestIds
import KubeMQ.Downstream.Progress
import KubeMQ.Subscription.Model
import KubeMQ.Subscription.Inversion
import KubeMQ.Subscription.Cancel
import KubeMQ.Subscription.History
import KubeMQ.Subscription.Delivery
import KubeMQ.Subscription.Report
import KubeMQ.Policy.Backoff
import KubeMQ.Policy.Schedule
import KubeMQ.Subscription.Reconnect
import KubeMQ.EventsStore.Broker
import KubeMQ.EventsStore.NoGap
import KubeMQ.Client.Lifecycle
import KubeMQ.Client.Drain
import KubeMQ.Client.Options
import KubeMQ.Client.Address
import KubeMQ.Retry.Loop
import KubeMQ.Middleware.Retry
import KubeMQ.Middleware.RetryTime
import KubeMQ.Middleware.Attempts
import KubeMQ.Middleware.Chain
import KubeMQ.Transport.Converter
import KubeMQ.Transport.Unary
import KubeMQ.Transport.Operations
import KubeMQ.Transport.Tls
import KubeMQ.Client.Unary
import KubeMQ.Client.Channels
import KubeMQ.Transport.StateMachine
import KubeMQ.Transport.StateRuns
import KubeMQ.Transport.Notifications
import KubeMQ.Transport.StateWaits
import KubeMQ.Transport.ReconnectLoop
import KubeMQ.Transport.ReconnectRuns
import KubeMQ.Transport.ReconnectAttempts
import KubeMQ.Transport.ReconnectEnding
import KubeMQ.Transport.ReconnectCounter
import KubeMQ.Client.Create
import KubeMQ.Client.Closing
import KubeMQ.Client.CloseOnce
import KubeMQ.Client.CloseFinal
import KubeMQ.Client.Callbacks
import KubeMQ.Client.Rpc
import KubeMQ.Client.Sending
import KubeMQ.Events.Broker
import KubeMQ.Events.AtMostOnce
import KubeMQ.Client.Batch
import KubeMQ.Client.Conversions
import KubeMQ.Client.Deadlines
import KubeMQ.Client.Convenience
import KubeMQ.Client.DefaultChannel
import KubeMQ.Client.QueueConversion
import KubeMQ.Client.Retrying
import KubeMQ.Queue.Ring
import KubeMQ.Queue.Bounded
import KubeMQ.Transport.MessageBuffer
import KubeMQ.Transport.Buffering
import KubeMQ.Transport.Loss
import KubeMQ.Transport.BufferIndices
import KubeMQ.Transport.BufferThreads
import KubeMQ.Burnin.Engine
import KubeMQ.Burnin.OneRun
import KubeMQ.Burnin.OneCall
import KubeMQ.Burnin.StopKept
import KubeMQ.Burnin.Worker
import KubeMQ.Burnin.WorkerSteps
import KubeMQ.Burnin.WorkerThreads
import KubeMQ.Burnin.WorkerLocks
import KubeMQ.Burnin.WorkerBound
import KubeMQ.Burnin.WorkerStop
import KubeMQ.Burnin.WorkerSilent
import KubeMQ.Burnin.Duration
import KubeMQ.Burnin.Config
import KubeMQ.Burnin.ConfigJson
import KubeMQ.Burnin.CreateWorkers
import KubeMQ.Burnin.Metrics
import KubeMQ.Burnin.Report
import KubeMQ.Burnin.Runs
import KubeMQ.Burnin.RunReport
import KubeMQ.Burnin.PairWorker
import KubeMQ.Burnin.PairWorkerSteps
import KubeMQ.Burnin.PairWorkerStop
import KubeMQ.Burnin.PairWorkerCounts
import KubeMQ.Burnin.PairWorkerEnds
import KubeMQ.Burnin.Shutdown
import KubeMQ.Burnin.ShutdownEnds
import KubeMQ.Burnin.Crc32
