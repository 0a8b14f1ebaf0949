/-
  TaskEngine/TaskRecord.lean
  ==========================
  **The live state of one task.**

  A record holds the resolved spec of a task together with what changes: its status, the number of
  runs in flight, whether a further run is owed to folded requests and who waits for it, counters,
  moments, and the state of its schedule.  `begin` and `conclude` are the bookkeeping at the two
  ends of a run; `refusal?` is the part of admission that the record decides by itself.
-/
import TaskEngine.Outcome
import TaskEngine.Spec
import TaskEngine.Time.Instant

namespace TaskEngine

/-- The position of a task in the order of registration. -/
abbrev TaskId := Nat

/-- A run of a task, by its number (the first one is 1). -/
structure RunId where
  task : TaskId
  number : Nat
deriving DecidableEq, Repr

/-- A caller that waits for a run of a task. -/
structure WaiterId where
  task : TaskId
  serial : Nat
deriving DecidableEq, Repr

/-- How far the engine has come in its life. -/
inductive Phase where
  | notStarted
  | running
  | stopping
  | stopped
deriving DecidableEq, Repr

namespace Phase

def label : Phase → String
  | notStarted => "not_started"
  | running => "running"
  | stopping => "stopping"
  | stopped => "stopped"

def all : List Phase := [notStarted, running, stopping, stopped]

end Phase

inductive TaskStatus where
  | notStarted
  | idle
  | running
  | stopping
  | stopped
deriving DecidableEq, Repr

namespace TaskStatus

def label : TaskStatus → String
  | notStarted => "not_started"
  | idle => "idle"
  | running => "running"
  | stopping => "stopping"
  | stopped => "stopped"

def all : List TaskStatus := [notStarted, idle, running, stopping, stopped]

def isClosing : TaskStatus → Bool
  | stopping | stopped => true
  | notStarted | idle | running => false

end TaskStatus

/-- Where the schedule of a periodic task stands. -/
inductive Loop where
  | absent
  /-- It has been set up and not yet taken a turn. -/
  | fresh
  /-- It sleeps until `due`; `base` is the moment of its first turn. -/
  | sleeping (base due : Instant)
  /-- It waits for a run to end, and had counted `seen` of them when it began to listen. -/
  | listening (base : Instant) (seen : Nat)
  | ended
deriving DecidableEq, Repr

def Loop.isAlive : Loop → Bool
  | fresh | sleeping .. | listening .. => true
  | absent | ended => false

/-- The live state of one task. -/
structure TaskRecord where
  spec : ResolvedSpec
  status : TaskStatus
  running : Nat := 0
  /-- Whether a further run is owed to requests that were folded. -/
  pending : Bool := false
  /-- The callers that wait for the owed run. -/
  parked : List WaiterId := []
  runCount : Nat := 0
  successCount : Nat := 0
  failCount : Nat := 0
  panicCount : Nat := 0
  canceledCount : Nat := 0
  lastStarted : Option Instant := none
  lastFinished : Option Instant := none
  lastSuccess : Option Instant := none
  lastError : Option String := none
  nextRun : Option Instant := none
  /-- How many runs have ended, for schedules that listen. -/
  completions : Nat := 0
  /-- When the last of them ended. -/
  completedAt : Instant := .zero
  loop : Loop := .absent
  /-- The serial number of the next waiting caller. -/
  nextSerial : Nat := 0
deriving DecidableEq, Repr

namespace TaskRecord

def name (t : TaskRecord) : String := t.spec.name

/-- The name in a list of stuck tasks. -/
def displayName (t : TaskRecord) : String := if t.name = "" then "<unnamed>" else t.name

/-- Why the record itself turns requests away. -/
def refusal? (t : TaskRecord) : Option RequestError :=
  match t.status with
  | .stopping | .stopped => some .closed
  | .notStarted => some .notRunning
  | .idle | .running => none

def isFull (t : TaskRecord) : Bool := t.spec.maxConcurrent ≤ t.running

/-- The status that follows from the phase of the engine and the runs in flight. -/
def statusIn (running : Nat) : Phase → TaskStatus
  | .notStarted => .notStarted
  | .running => if 0 < running then .running else .idle
  | .stopping => .stopping
  | .stopped => .stopped

def begin (t : TaskRecord) (now : Instant) : TaskRecord :=
  { t with
    running := t.running + 1
    runCount := t.runCount + 1
    lastStarted := some now
    status := .running }

def count (t : TaskRecord) (now : Instant) (outcome : Outcome) : TaskRecord :=
  let t := { t with lastFinished := some now }
  match outcome with
  | .succeeded => { t with successCount := t.successCount + 1, lastSuccess := some now }
  | .failed e =>
      { t with
        canceledCount := t.canceledCount + (if e.isCancellation then 1 else 0)
        failCount := t.failCount + 1
        lastError := outcome.errorText? }
  | .panicked _ =>
      { t with
        failCount := t.failCount + 1
        panicCount := t.panicCount + 1
        lastError := outcome.errorText? }
  | .canceled _ => { t with canceledCount := t.canceledCount + 1 }

/-- A run ends: it leaves its place, its outcome is counted, the owed run is no longer owed, and
listening schedules are told. -/
def conclude (t : TaskRecord) (phase : Phase) (now : Instant) (outcome : Outcome) : TaskRecord :=
  let counted := { t with running := t.running - 1 }.count now outcome
  { counted with
    pending := false
    parked := if t.pending then [] else t.parked
    status := if t.status.isClosing then t.status else statusIn (t.running - 1) phase
    completions := t.completions + 1
    completedAt := now }

section Conclude

variable (t : TaskRecord) (phase : Phase) (now : Instant) (outcome : Outcome)

/-- An outcome is counted without a change to what requests depend on. -/
theorem count_eq : t.count now outcome = { t with
    successCount := (t.count now outcome).successCount
    failCount := (t.count now outcome).failCount
    panicCount := (t.count now outcome).panicCount
    canceledCount := (t.count now outcome).canceledCount
    lastFinished := (t.count now outcome).lastFinished
    lastSuccess := (t.count now outcome).lastSuccess
    lastError := (t.count now outcome).lastError } := by
  cases outcome <;> rfl

@[simp] theorem conclude_spec : (t.conclude phase now outcome).spec = t.spec := by
  rw [conclude, count_eq]

@[simp] theorem conclude_running : (t.conclude phase now outcome).running = t.running - 1 := by
  rw [conclude, count_eq]

@[simp] theorem conclude_pending : (t.conclude phase now outcome).pending = false := rfl

@[simp] theorem conclude_parked :
    (t.conclude phase now outcome).parked = if t.pending then [] else t.parked := rfl

@[simp] theorem conclude_runCount : (t.conclude phase now outcome).runCount = t.runCount := by
  rw [conclude, count_eq]

@[simp] theorem conclude_nextSerial :
    (t.conclude phase now outcome).nextSerial = t.nextSerial := by
  rw [conclude, count_eq]

end Conclude

/-- A request is folded into the owed run. -/
def fold (t : TaskRecord) (waiter : Option WaiterId) : TaskRecord :=
  { t with pending := true, parked := t.parked ++ waiter.toList }

def detach (t : TaskRecord) (waiter : WaiterId) : TaskRecord :=
  { t with parked := t.parked.filter (· != waiter) }

def activate (t : TaskRecord) : TaskRecord :=
  if t.status = .notStarted then { t with status := .idle } else t

/-- The task is stopping, unless it has stopped. -/
def markStopping (t : TaskRecord) : TaskRecord :=
  if t.status = .stopped then t else { t with status := .stopping }

def forget (t : TaskRecord) : TaskRecord := { t with pending := false, parked := [] }

def finalize (t : TaskRecord) : TaskRecord :=
  { t.forget with status := .stopped, nextRun := none }

/-- Sets up the schedule of a periodic task, once. -/
def ensureLoop (t : TaskRecord) : TaskRecord :=
  if t.spec.schedule.isPeriodic && t.loop = .absent then { t with loop := .fresh } else t

end TaskRecord

/-! ### Snapshots -/

structure Snapshot where
  name : String
  tags : List String
  schedule : String
  status : TaskStatus
  maxConcurrent : Nat
  overlap : Overlap
  running : Nat
  pending : Bool
  pendingWaiters : Nat
  runCount : Nat
  successCount : Nat
  failCount : Nat
  panicCount : Nat
  canceledCount : Nat
  lastStarted : Option Instant
  lastFinished : Option Instant
  lastSuccess : Option Instant
  lastError : Option String
  nextRun : Option Instant
deriving DecidableEq, Repr

def TaskRecord.snapshot (t : TaskRecord) : Snapshot where
  name := t.spec.name
  tags := t.spec.tags
  schedule := t.spec.schedule.label
  status := t.status
  maxConcurrent := t.spec.maxConcurrent
  overlap := t.spec.overlap
  running := t.running
  pending := t.pending
  pendingWaiters := t.parked.length
  runCount := t.runCount
  successCount := t.successCount
  failCount := t.failCount
  panicCount := t.panicCount
  canceledCount := t.canceledCount
  lastStarted := t.lastStarted
  lastFinished := t.lastFinished
  lastSuccess := t.lastSuccess
  lastError := t.lastError
  nextRun := t.nextRun

end TaskEngine
