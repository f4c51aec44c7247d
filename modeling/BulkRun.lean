import BulkRun.Command.Param
import BulkRun.InMemory.Description
import BulkRun.Main
import BulkRun.Proofs.Bucketing.Streaming
import BulkRun.Proofs.Channel.HandingBack
import BulkRun.Proofs.Dispatch.NotHanging
import BulkRun.Proofs.Dispatch.Publication
import BulkRun.Proofs.Execution.Discipline
import BulkRun.Proofs.Execution.Effort
import BulkRun.Proofs.Execution.OneByOne
import BulkRun.Proofs.Execution.Returns
import BulkRun.Proofs.Execution.Surplus
import BulkRun.Proofs.Execution.UnitsOfWork
import BulkRun.Proofs.InMemory.Enumeration
import BulkRun.Proofs.InMemory.Outages
import BulkRun.Proofs.Redelivery.Harmless
import BulkRun.Proofs.Scroll.Contract
import BulkRun.Proofs.Service.Outcome
import BulkRun.Proofs.Service.Shutdown
import BulkRun.Proofs.Service.Submission
import BulkRun.Proofs.Settings.Overrides
import BulkRun.Proofs.Status.Ending
import BulkRun.Proofs.Status.Expiry
import BulkRun.Proofs.Status.OverReports
import BulkRun.Proofs.Status.Waiting
import BulkRun.Service
