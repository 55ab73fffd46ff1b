import GraphileWorker.Database.LateOutcome
import GraphileWorker.Database.QueueLeak
import GraphileWorker.LocalQueue.Shutdown
import GraphileWorker.LocalQueue.Polling
import GraphileWorker.LocalQueue.Wakeups
import GraphileWorker.LocalQueue.Size
import GraphileWorker.LocalQueue.HandOrder
import GraphileWorker.Cron.Panics
import GraphileWorker.Cron.StepExpansion
import GraphileWorker.Migrations.Concurrent
import GraphileWorker.Migrations.Bundled
import GraphileWorker.Batcher.WorkerDrop
import GraphileWorker.Execution.BatchRetry
import GraphileWorker.Lifecycle.Deregister
import GraphileWorker.Cron.Payload
import GraphileWorker.LocalQueue.DelayAbort
import GraphileWorker.Cron.Fill
import GraphileWorker.Cron.Backfill
import GraphileWorker.Cron.OptionBounds
import GraphileWorker.Batcher.BatchedOutcomes
import GraphileWorker.Batcher.Observers
import GraphileWorker.Lifecycle.Dispatch
import GraphileWorker.Database.FlagPredicate
import GraphileWorker.Maintenance.ClaimReturn
import GraphileWorker.Runtime.QueueWakeup
import GraphileWorker.Database.Identifiers
import GraphileWorker.Recovery.SweepHooks
import GraphileWorker.RunOnce.ShutdownClaims
import GraphileWorker.Hooks.AddedJobs
import GraphileWorker.LocalQueue.ModeEvents
import GraphileWorker.Database.BatchCalls
import GraphileWorker.Maintenance.References
import GraphileWorker.Database.SingleClaims
import GraphileWorker.Database.Retry
import GraphileWorker.Recovery.HeldJobs
