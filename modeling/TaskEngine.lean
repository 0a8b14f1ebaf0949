import TaskEngine.Broadcast
import TaskEngine.LaneSession
import TaskEngine.Session
import TaskEngine.Proofs.Moves
import TaskEngine.Proofs.Capacity
import TaskEngine.Proofs.Feeding
import TaskEngine.Proofs.Growth
import TaskEngine.Proofs.Places
import TaskEngine.Proofs.Waiters
import TaskEngine.Proofs.Closing
import TaskEngine.Proofs.EndMarker
import TaskEngine.Proofs.Worlds
import TaskEngine.Proofs.Stillness
import TaskEngine.Proofs.Expiry
import TaskEngine.Proofs.Tracking
import TaskEngine.Proofs.Draining
import TaskEngine.Proofs.Lifecycle
import TaskEngine.Proofs.Tokens
import TaskEngine.Proofs.Announcements
import TaskEngine.Proofs.Notes
import TaskEngine.Proofs.Owing
import TaskEngine.Proofs.Debts
import TaskEngine.Proofs.Beginnings
import TaskEngine.Proofs.Tallies
import TaskEngine.Proofs.Reporting
import TaskEngine.Proofs.Accounting
import TaskEngine.Proofs.Departures
import TaskEngine.Proofs.Deliveries
import TaskEngine.Proofs.Composure
import TaskEngine.Proofs.FixedRate
import TaskEngine.Proofs.Isolation
import TaskEngine.Proofs.Numbering
import TaskEngine.Proofs.Registration
import TaskEngine.Proofs.FixedDelay
import TaskEngine.Proofs.Rejections
import TaskEngine.Proofs.Flushing
import TaskEngine.Proofs.Survival
import TaskEngine.Proofs.Confinement
import TaskEngine.Proofs.Endings
import TaskEngine.Proofs.Messages
import TaskEngine.Proofs.Drafts
import TaskEngine.Proofs.Overruns
import TaskEngine.Proofs.Reordering
