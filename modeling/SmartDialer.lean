import SmartDialer.Lib.Table
import SmartDialer.Lib.Counting
import SmartDialer.Lib.History
import SmartDialer.Lib.Txn
import SmartDialer.Lib.Run
import SmartDialer.Lib.Simulation
import SmartDialer.Lib.Matching
import SmartDialer.Lib.Roster
import SmartDialer.Domain.Transitions
import SmartDialer.Repo.Db
import SmartDialer.Repo.View
import SmartDialer.Repo.Agents
import SmartDialer.Repo.Borrowers
import SmartDialer.Repo.Calls
import SmartDialer.Repo.Events
import SmartDialer.Repo.Metrics
import SmartDialer.Worker.EventApplier
import SmartDialer.Worker.Reaper
import SmartDialer.Allocator
import SmartDialer.Statements
import SmartDialer.System
import SmartDialer.Floor
import SmartDialer.Correctness.Counters
import SmartDialer.Correctness.Fencing
import SmartDialer.Correctness.CallRows
import SmartDialer.Correctness.Progress
import SmartDialer.Correctness.Lifecycle
import SmartDialer.Correctness.Transactions
import SmartDialer.Correctness.MassLogout
import SmartDialer.Correctness.Moves
import SmartDialer.Correctness.Attempts
import SmartDialer.Correctness.Seats
import SmartDialer.Correctness.Pairing
import SmartDialer.Correctness.Books
import SmartDialer.Correctness.Keys
import SmartDialer.Correctness.OneLiveCall
import SmartDialer.Correctness.Dialable
import SmartDialer.Correctness.Bookkeeping
import SmartDialer.Correctness.Frequency
import SmartDialer.Correctness.EventEffects
import SmartDialer.Correctness.LedgerStep
import SmartDialer.Correctness.Ledger
import SmartDialer.Correctness.ExactlyOnce
import SmartDialer.Correctness.DrainRun
import SmartDialer.Correctness.Delivery
import SmartDialer.Correctness.Underway
import SmartDialer.Correctness.Outcome
import SmartDialer.Config
import SmartDialer.Correctness.Ceiling
import SmartDialer.Correctness.Cooldown
import SmartDialer.Correctness.Routing
import SmartDialer.Correctness.Cancels
import SmartDialer.Correctness.Dialing
import SmartDialer.Correctness.Recovery
import SmartDialer.Correctness.Staffing
import SmartDialer.Worker.PacingLoop
import SmartDialer.Correctness.Pullback
import SmartDialer.Correctness.Clogging
import SmartDialer.Correctness.Leadership
import SmartDialer.Lib.ScoreInterval
import SmartDialer.Lib.Window
import SmartDialer.Pacing.Estimators
import SmartDialer.Pacing.Predictive
import SmartDialer.Repo.Resolved
import SmartDialer.Correctness.Trip
import SmartDialer.Correctness.Decision
import SmartDialer.Correctness.RowWrites
import SmartDialer.Correctness.AnswerRate
import SmartDialer.Correctness.Feedback
import SmartDialer.Correctness.Sweep
import SmartDialer.Correctness.Ticks
import SmartDialer.Correctness.LeaseClock
import SmartDialer.Correctness.RowShapes
import SmartDialer.Correctness.Compensation
import SmartDialer.Correctness.Probes
import SmartDialer.Correctness.ErrorRate
import SmartDialer.Lib.Neighbours
import SmartDialer.Providers.MockA
import SmartDialer.Correctness.HoldAndPair
import SmartDialer.Lib.Agenda
import SmartDialer.Clock
import SmartDialer.Lib.PyJson
import SmartDialer.Api.Webhooks
import SmartDialer.Correctness.Acknowledge
import SmartDialer.Correctness.VirtualTime
import SmartDialer.Correctness.Wakeups
import SmartDialer.Correctness.Citations
import SmartDialer.Correctness.Provenance
import SmartDialer.Correctness.Records
import SmartDialer.Correctness.References
import SmartDialer.Sim.Runner
import SmartDialer.Sim.Scenario
import SmartDialer.Correctness.Lifecycles
import SmartDialer.Correctness.Scenarios
import SmartDialer.Correctness.Simulated
import SmartDialer.Correctness.Reconciliation
import SmartDialer.Repo.Decisions
import SmartDialer.Correctness.AuditTrail
import SmartDialer.Api.LiveStatus
import SmartDialer.Correctness.Dashboard
import SmartDialer.Correctness.Desertion
import SmartDialer.Correctness.Conclusions
import SmartDialer.Correctness.UnknownCalls
import SmartDialer.Correctness.Quiescence
import SmartDialer.Correctness.Returning
import SmartDialer.Correctness.WindUp
import SmartDialer.Correctness.Absences
import SmartDialer.Correctness.Rest
