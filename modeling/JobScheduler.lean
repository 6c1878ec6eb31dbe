import JobScheduler.Executor.Simulation
import JobScheduler.Main
import JobScheduler.Proofs.Batch.Run
import JobScheduler.Proofs.Board.Ancestry
import JobScheduler.Proofs.Board.Failure
import JobScheduler.Proofs.Board.Naming
import JobScheduler.Proofs.Board.Outline
import JobScheduler.Proofs.Board.Rebuild
import JobScheduler.Proofs.Exchange.Plant
import JobScheduler.Proofs.Scheduler.Acceptance
import JobScheduler.Proofs.Scheduler.Beginning
import JobScheduler.Proofs.Scheduler.Cancellation
import JobScheduler.Proofs.Scheduler.Coherence
import JobScheduler.Proofs.Scheduler.Crash
import JobScheduler.Proofs.Scheduler.Greedy
import JobScheduler.Proofs.Scheduler.Idempotence
import JobScheduler.Proofs.Scheduler.Independence
import JobScheduler.Proofs.Scheduler.Ledger
import JobScheduler.Proofs.Scheduler.Mirror
import JobScheduler.Proofs.Scheduler.Readmission
import JobScheduler.Proofs.Scheduler.Reinstated
import JobScheduler.Proofs.Scheduler.Rejection
import JobScheduler.Proofs.Scheduler.Release
import JobScheduler.Proofs.Scheduler.Results
import JobScheduler.Proofs.Simulation.Run
import JobScheduler.Proofs.Submission.Cycle
import JobScheduler.Scheduler.Recovery
