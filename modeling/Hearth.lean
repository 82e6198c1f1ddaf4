import Hearth.Engine
import Hearth.Proofs.Data.RoundTrip
import Hearth.Proofs.Execution.Reversal
import Hearth.Proofs.Execution.Toggling
import Hearth.Proofs.Fleet.Convergence
import Hearth.Proofs.Flow.Connection
import Hearth.Proofs.Flow.Deeds
import Hearth.Proofs.Flow.Depth
import Hearth.Proofs.Flow.DepthFirst
import Hearth.Proofs.Flow.Findings
import Hearth.Proofs.Flow.Outcomes
import Hearth.Proofs.Schedule.Clock
import Hearth.Proofs.Schedule.Sun
import Hearth.Proofs.Scheduler.Punctual
import Hearth.Proofs.Scheduler.Reschedule
import Hearth.Proofs.Tracking.Integrity
import Hearth.Proofs.Tracking.Runs
import Hearth.Proofs.Tracking.Separation
import Hearth.Proofs.Watch.Exactness
import Hearth.Rehearsal.Scene
import Hearth.Proofs.Flow.Consistency
import Hearth.Proofs.Flow.Memory
import Hearth.Proofs.Flow.Observation
import Hearth.Proofs.Scheduler.Faults
import Hearth.Proofs.Scheduler.Replacement
import Hearth.Proofs.Scheduler.Drift
import Hearth.Proofs.Scheduler.Independence
import Hearth.Proofs.Scheduler.Ledger
import Hearth.Proofs.Scheduler.Records
import Hearth.Proofs.Execution.Commands
import Hearth.Proofs.Schedule.Daylight
import Hearth.Proofs.Schedule.Weekdays
import Hearth.Proofs.Settings
import Hearth.Proofs.Time.Written
