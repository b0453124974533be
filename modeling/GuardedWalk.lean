import GuardedWalk.Event.Table
import GuardedWalk.Proofs.Copying.Travelling
import GuardedWalk.Proofs.Ownership.Cancel
import GuardedWalk.Proofs.Ownership.Discipline
import GuardedWalk.Proofs.Parking.Waking
import GuardedWalk.Proofs.Walk.Collecting
import GuardedWalk.Proofs.Walk.Entitlement
import GuardedWalk.Proofs.Walk.Reentering
import GuardedWalk.Proofs.Walk.Stopping
import GuardedWalk.Proofs.Walk.Undisturbed
import GuardedWalk.Script.Run
import GuardedWalk.Proofs.Walk.Succession
import GuardedWalk.Proofs.Walk.Footprint
import GuardedWalk.Proofs.Table.Traffic
import GuardedWalk.Proofs.Table.Turns
import GuardedWalk.Proofs.Table.Methods
import GuardedWalk.Proofs.Table.Law
import GuardedWalk.Proofs.Choir.Law
import GuardedWalk.Proofs.Choir.Walking
import GuardedWalk.Proofs.Choir.Announcing
import GuardedWalk.Proofs.Event.Agreement
import GuardedWalk.Proofs.Walk.Judging
import GuardedWalk.Proofs.Walk.Timeouts
import GuardedWalk.Proofs.Walk.Receiving
import GuardedWalk.Proofs.Copying.Unreadable
import GuardedWalk.Proofs.Parking.Showing
import GuardedWalk.Proofs.Parking.Roll
import GuardedWalk.Proofs.Reports.Counting
import GuardedWalk.Proofs.Reports.Keeping
import GuardedWalk.Proofs.Reports.Ledger
import GuardedWalk.Proofs.FanOut.Noting
import GuardedWalk.Proofs.FanOut.Uniform
import GuardedWalk.Proofs.Nesting.Law
