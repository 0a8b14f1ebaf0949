/-
  TaskEngine/Behaviour.lean
  =========================
  **The code of callers, as data.**

  The engine calls code that is not its own: the work of a task, hooks around every run, a handler
  for failures, and subscribers to events.  Each is described here by what it does when it is
  called, so that statements about every caller are statements about every such description.

  Work plays a list of actions; the n-th call of a task plays the n-th list and later calls play
  the last one again.  The call may also panic itself, for all runs or for some of them.
-/
import TaskEngine.Error
import TaskEngine.Event
import TaskEngine.Cancellation

namespace TaskEngine

/-! ### Work -/

/-- One step of the work of a task. -/
inductive Action where
  | succeed
  | answer (error : WorkError)
  | panic (info : String)
  | sleep (d : Duration)
  /-- Sleeps, but gives up when the token of the run is cancelled. -/
  | sleepOrCancel (d : Duration)
  /-- Takes one permit of the task, in the order of arrival. -/
  | gate
  /-- Waits until the token of the run is cancelled, and gives up then. -/
  | untilCancel
  /-- Waits until the token of the run is cancelled, and goes on then. -/
  | awaitCancel
  /-- Gives up if the token of the run is cancelled. -/
  | check
  | trigger (target : String)
  | cancel (token : Token)
  | state (target : String)
  /-- Has it noted, by a process of its own, that the token of the run is cancelled. -/
  | watchToken
deriving DecidableEq, Repr

inductive Work where
  /-- The actions of the first call, the second, and so on; the last list serves all later calls,
  and without any list every call succeeds. -/
  | plays (calls : List (List Action))
  /-- The call itself panics, before there is any work to wait for, unless it is for one of the runs
  whose numbers are `spared`: their calls are let through and play `calls`. -/
  | refusesCall (info : String) (spared : List Nat := []) (calls : List (List Action) := [])
deriving DecidableEq, Repr

namespace Work

def calls : Work → List (List Action)
  | plays calls | refusesCall _ _ calls => calls

/-- What the call for the run of that number panics with, if it does. -/
def refusal? (number : Nat) : Work → Option String
  | plays _ => none
  | refusesCall info spared _ => if number ∈ spared then none else some info

/-- What work does if nothing is said: it succeeds. -/
def trivial : Work := plays []

/-- The element of a given number, or the last one. -/
def clampedGet (calls : List (List Action)) (number : Nat) : List Action :=
  (calls[number]?).getD (calls.getLast?.getD [])

end Work

/-! ### Hooks and handlers -/

/-- Code around every run. -/
inductive Hook where
  | silent
  /-- Notes each call, may ask for a run, and panics for the listed run numbers. -/
  | noting (id : String) (panicBefore panicAfter : List Nat)
      (triggerBefore triggerAfter : Option String)
deriving DecidableEq, Repr

/-- What is called with failed and panicked runs. -/
inductive Handler where
  | logging
  /-- Notes each call, may ask for a run, and may panic. -/
  | noting (trigger : Option String) (panics : Bool)
deriving DecidableEq, Repr, Inhabited

def Handler.panicText : String := "handler gave up"

def Hook.panicTextBefore (number : Nat) : String := "hook before " ++ toString number

def Hook.panicTextAfter (number : Nat) : String := "hook after " ++ toString number

/-! ### Subscribers -/

/-- How a subscriber takes an event of a kind over which it may panic. -/
inductive Temper where
  /-- It handles the event after all. -/
  | calm
  /-- It panics while it handles the event; `named` says whether it gives its name when it is asked
  for it then, even if it is one that may panic over that too. -/
  | panics (named : Bool)
  /-- It panics when it is called, before there is anything to wait for. -/
  | refuses
deriving DecidableEq, Repr

/-- What comes of an event that a subscriber is given. -/
inductive Reception where
  | handled
  /-- It has panicked over the event. -/
  | panicked
  /-- It has panicked over the event, and panics again when it is asked for its name. -/
  | unnamed
  /-- It has panicked at the call. -/
  | refused
deriving DecidableEq, Repr

structure Subscriber where
  name : String
  /-- How many events may wait for it. -/
  capacity : Nat := 1024
  /-- How long it is busy with an event. -/
  delay : Duration := .zero
  /-- The kinds of events over which it may panic. -/
  panicsOn : List EventKind := []
  /-- Whether asking for its name may panic once its lane is open. -/
  losesName : Bool := false
  logs : Bool := false
  /-- How it takes the n-th event that it is given, counted from one, if it may panic over it. -/
  temper : Nat → Event → Temper := fun _ _ => .panics false

namespace Subscriber

def logWriter : Subscriber := { name := "log-writer", logs := true }

def panicText (s : Subscriber) (e : Event) : String := s.name ++ " on " ++ e.kind.name

def reception (s : Subscriber) (number : Nat) (e : Event) : Reception :=
  if e.kind ∈ s.panicsOn then
    match s.temper number e with
    | .calm => .handled
    | .panics named => if s.losesName && !named then .unnamed else .panicked
    | .refuses => .refused
  else .handled

/-- How long it is busy with an event: not at all if it panics at the call. -/
def timeFor (s : Subscriber) (number : Nat) (e : Event) : Duration :=
  if s.reception number e = .refused then .zero else s.delay

end Subscriber

end TaskEngine
