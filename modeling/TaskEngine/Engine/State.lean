/-
  TaskEngine/Engine/State.lean
  ============================
  **The state of an engine.**

  An engine has a phase and a run token, which together decide whether requests are admitted; the
  registered tasks with an index by name; the runs in flight; the event ring with the one cursor
  that feeds the lanes of the subscribers; and the answers given to waiting callers.

  The tracker of a shutdown is not a field of its own: what has to end before a shutdown succeeds
  are the runs in flight, the live schedules and the watcher of the run token (`Engine.isIdle`).
-/
import TaskEngine.Journal
import TaskEngine.Lane
import TaskEngine.Ring

namespace TaskEngine

/-! ### Runs in flight -/

inductive Pause where
  | sleep (due : Instant)
  | sleepOrCancel (due : Instant)
  | gate
  /-- The cancellation of its token; `goesOn` says whether the work goes on then or gives up. -/
  | cancel (goesOn : Bool)
deriving DecidableEq, Repr

inductive Progress where
  /-- It has been launched and not yet taken a turn. -/
  | launched
  /-- Its work was called at `started` as call number `call`, may take until `limit`, waits for
  `pause` and has the actions `rest` before it. -/
  | working (call : Nat) (started : Instant) (limit : Option (Duration × Instant)) (pause : Pause)
      (rest : List Action)
deriving DecidableEq, Repr

structure Run where
  id : RunId
  /-- Whether it was owed to folded requests. -/
  merged : Bool
  token : Token
  /-- The callers that are told how it ends. -/
  waiters : List WaiterId
  progress : Progress := .launched
deriving DecidableEq, Repr

/-! ### Answers -/

inductive Delivery where
  | answered (result : WaitResult)
  /-- The run is gone without an answer. -/
  | dropped

/-- What a waiting caller makes of it: no answer means that the engine is closed to it. -/
def Delivery.result : Delivery → WaitResult
  | answered r => r
  | dropped => .error .closed

/-! ### The way from the ring to the lanes -/

/-- Who is in charge of feeding the lanes. -/
inductive Dispatch where
  /-- Nobody: there are no subscribers, or a shutdown has taken over. -/
  | idle
  /-- Nobody yet: events wait in the ring. -/
  | buffered
  | pumping
deriving DecidableEq, Repr

inductive Pump where
  | absent
  | receiving
  /-- The last event was passed on; the workers are being waited for. -/
  | closing
  | ended
deriving DecidableEq, Repr

def Pump.isAlive : Pump → Bool
  | receiving | closing => true
  | absent | ended => false

/-! ### The engine -/

structure Engine where
  config : Config
  now : Instant := .zero
  phase : Phase := .notStarted
  /-- The token on which those of all runs hang. -/
  runToken : Token := { root := .engine }
  cancellation : Cancellation := {}
  tasks : List TaskRecord := []
  /-- Where the tasks with a name are found. -/
  index : List (String × TaskId) := []
  runs : List Run := []
  watching : Bool := false
  bus : Ring Event
  /-- The number of the event that the lanes are fed next. -/
  cursor : Nat := 0
  lanes : List Lane := []
  dispatch : Dispatch
  pump : Pump := .absent
  mail : List (WaiterId × Delivery) := []
  /-- What has happened, the newest first. -/
  journal : List Entry := []

namespace Engine

def create (config : Config) (subscribers : List Subscriber) : Engine where
  config := config
  bus := .ofCapacity config.clampedBusCapacity
  lanes := openLanes subscribers
  dispatch := if subscribers.isEmpty then .idle else .buffered

/-! ### Looking things up -/

def isCancelled (e : Engine) (t : Token) : Bool := e.cancellation.isCancelled t

/-- Why no request is admitted at present, if so. -/
def refusal? (e : Engine) : Option RequestError :=
  match e.phase with
  | .running => if e.isCancelled e.runToken then some .closed else none
  | .notStarted => some .notRunning
  | .stopping | .stopped => some .closed

def isOpen (e : Engine) : Bool := e.refusal?.isNone

def run? (e : Engine) (id : RunId) : Option Run := e.runs.find? (·.id == id)

def lookup? (e : Engine) (name : String) : Option TaskId :=
  if name = "" then none else e.index.lookup name

def snapshot? (e : Engine) (t : TaskId) : Option Snapshot := (e.tasks[t]?).map (·.snapshot)

def statusOf? (e : Engine) (name : String) : Option Snapshot :=
  (e.lookup? name).bind e.snapshot?

def delivery? (e : Engine) (w : WaiterId) : Option Delivery := e.mail.lookup w

/-- Whether nothing is left that a shutdown waits for. -/
def isIdle (e : Engine) : Bool :=
  e.runs.isEmpty && !e.watching && e.tasks.all fun t => !t.loop.isAlive

/-! ### Small changes -/

def note (e : Engine) (n : Note) : Engine := { e with journal := ⟨e.now, n⟩ :: e.journal }

/-- Publishes an event; `task` is the task that it is about, if it is about one. -/
def announce (e : Engine) (event : Event) (task : Option TaskId) : Engine :=
  { e with bus := e.bus.push event }.note (.published event task)

def publish (e : Engine) (event : Event) : Engine := e.announce event none

def publishAbout (e : Engine) (t : TaskId) (event : Event) : Engine := e.announce event (some t)

def publishAll (e : Engine) (events : List Event) : Engine := events.foldl publish e

def cancel (e : Engine) (t : Token) : Engine := { e with cancellation := e.cancellation.cancel t }

def updateTask (e : Engine) (t : TaskId) (f : TaskRecord → TaskRecord) : Engine :=
  { e with tasks := e.tasks.modify t f }

def updateTasks (e : Engine) (f : TaskRecord → TaskRecord) : Engine :=
  { e with tasks := e.tasks.map f }

def deliver (e : Engine) (waiters : List WaiterId) (d : Delivery) : Engine :=
  { e with mail := waiters.map (·, d) ++ e.mail }

def setProgress (e : Engine) (id : RunId) (progress : Progress) : Engine :=
  { e with runs := e.runs.map fun r => if r.id = id then { r with progress } else r }

/-- Publishing events changes the ring and the journal, and nothing else. -/
theorem publishAll_eq (e : Engine) (events : List Event) :
    e.publishAll events = { e with
      bus := events.foldl Ring.push e.bus
      journal := (events.map fun event => ⟨e.now, .published event none⟩).reverse ++ e.journal } := by
  induction events generalizing e with
  | nil => rfl
  | cons event events ih =>
      show (e.publish event).publishAll events = _
      rw [ih]
      simp [publish, announce, note]

/-- The events published so far, in order. -/
def published (e : Engine) : List Event := (e.journal.filterMap (·.note.published?)).reverse

end Engine

end TaskEngine
