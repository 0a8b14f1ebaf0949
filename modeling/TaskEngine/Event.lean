/-
  TaskEngine/Event.lean
  =====================
  **What the engine announces.**

  An event has a kind and, depending on it, the name of a task or subscriber, a reason, a run
  number, the length of a run and the delay until a tick (both in compact milliseconds).
-/
import TaskEngine.Time.Duration

namespace TaskEngine

inductive EventKind where
  /-- A subscriber panicked over an event. -/
  | subscriberPanicked
  /-- A subscriber was not given an event. -/
  | subscriberOverflow
  | managerStarted
  | shutdownRequested
  /-- All runs and schedules ended within the bound of a shutdown. -/
  | allStoppedWithin
  /-- The bound of a shutdown was reached first. -/
  | graceExceeded
  | taskAdded
  | runStarted
  | runSucceeded
  | runFailed
  | runPanicked
  | runCanceled
  /-- A request was turned away at capacity. -/
  | runSkipped
  /-- A request was folded into the owed run. -/
  | runMerged
  | tickScheduled
deriving DecidableEq, Repr

namespace EventKind

def all : List EventKind :=
  [subscriberPanicked, subscriberOverflow, managerStarted, shutdownRequested, allStoppedWithin,
   graceExceeded, taskAdded, runStarted, runSucceeded, runFailed, runPanicked, runCanceled,
   runSkipped, runMerged, tickScheduled]

def name : EventKind → String
  | subscriberPanicked => "SubscriberPanicked"
  | subscriberOverflow => "SubscriberOverflow"
  | managerStarted => "ManagerStarted"
  | shutdownRequested => "ShutdownRequested"
  | allStoppedWithin => "AllStoppedWithin"
  | graceExceeded => "GraceExceeded"
  | taskAdded => "TaskAdded"
  | runStarted => "RunStarted"
  | runSucceeded => "RunSucceeded"
  | runFailed => "RunFailed"
  | runPanicked => "RunPanicked"
  | runCanceled => "RunCanceled"
  | runSkipped => "RunSkipped"
  | runMerged => "RunMerged"
  | tickScheduled => "TickScheduled"

def ofName? (s : String) : Option EventKind := all.find? (·.name == s)

/-- Whether events of this kind end a run. -/
def isRunFinished : EventKind → Bool
  | runSucceeded | runFailed | runPanicked | runCanceled => true
  | _ => false

theorem ofName?_name (k : EventKind) : ofName? k.name = some k := by
  cases k <;> decide

end EventKind

structure Event where
  kind : EventKind
  /-- The task, or the subscriber, that it is about. -/
  task : Option String := none
  reason : Option String := none
  /-- The number of the run within its task. -/
  run : Option Nat := none
  elapsedMs : Option Nat := none
  delayMs : Option Nat := none
deriving DecidableEq, Repr

namespace Event

def withTask (e : Event) (name : String) : Event := { e with task := some name }

def withReason (e : Event) (reason : String) : Event := { e with reason := some reason }

def withRun (e : Event) (number : Nat) : Event := { e with run := some number }

def withElapsed (e : Event) (d : Duration) : Event :=
  { e with elapsedMs := some d.compactMilliseconds }

def withDelay (e : Event) (d : Duration) : Event :=
  { e with delayMs := some d.compactMilliseconds }

def overflow (subscriber reason : String) : Event :=
  { kind := .subscriberOverflow, task := some subscriber, reason := some reason }

def subscriberPanic (subscriber info : String) : Event :=
  { kind := .subscriberPanicked, task := some subscriber, reason := some info }

def isRunFinished (e : Event) : Bool := e.kind.isRunFinished

end Event

/-- Events are numbered in the order in which they are made. -/
structure Numbering where
  next : Nat := 0
deriving Repr

/-- The number of the event made now, and the numbering from then on. -/
def Numbering.draw (n : Numbering) : Nat × Numbering := (n.next, ⟨n.next + 1⟩)

theorem Numbering.draw_lt (n : Numbering) : n.draw.1 < n.draw.2.draw.1 := Nat.lt_succ_self _

end TaskEngine
