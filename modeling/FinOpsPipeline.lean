import FinOpsPipeline.Queue.Delivery
import FinOpsPipeline.Queue.Outcome
import FinOpsPipeline.Queue.Visibility
import FinOpsPipeline.Engine.Limits
import FinOpsPipeline.Engine.KeepCurrent
import FinOpsPipeline.Clients.Krr
import FinOpsPipeline.Clients.PodSelector
import FinOpsPipeline.Approval.Vetted
import FinOpsPipeline.Queue.Fifo
import FinOpsPipeline.Queue.LostReplies
import FinOpsPipeline.Frontend.Capacity
import FinOpsPipeline.Frontend.Fairness
import FinOpsPipeline.Chronos.Freshness
import FinOpsPipeline.Approval.Redelivery
import FinOpsPipeline.Approval.Batch
import FinOpsPipeline.Approval.Polling
import FinOpsPipeline.Engine.Blocking
import FinOpsPipeline.Engine.Cost
import FinOpsPipeline.LoadTest.Evaluate
import FinOpsPipeline.LoadTest.Deadline
import FinOpsPipeline.Queue.Recovery
import FinOpsPipeline.Chronos.Cadence
import FinOpsPipeline.Approval.Record
import FinOpsPipeline.Clients.Isolation
import FinOpsPipeline.Clients.Scan
import FinOpsPipeline.Clients.ScanCache
import FinOpsPipeline.Approval.Report
import FinOpsPipeline.Frontend.PodScan
import FinOpsPipeline.Frontend.Interrupted
import FinOpsPipeline.Chronos.Pipeline
import FinOpsPipeline.LoadTest.Monotone
import FinOpsPipeline.LoadTest.Rows
import FinOpsPipeline.LoadTest.Failures
import FinOpsPipeline.LoadTest.Percentile
import FinOpsPipeline.LoadTest.ScaleInGuard
import FinOpsPipeline.Chronos.Promotion
import FinOpsPipeline.LoadTest.RunId
import FinOpsPipeline.Engine.Stability
import FinOpsPipeline.Chronos.CpuQuery
import FinOpsPipeline.Bank.Overdraft
import FinOpsPipeline.Bank.Requests
import FinOpsPipeline.Bank.History
import FinOpsPipeline.Queue.Counters
import FinOpsPipeline.Accounts.Checks
import FinOpsPipeline.Accounts.ContactBook
