/-
  TaskEngine/Journal.lean
  =======================
  **What has happened, in order.**

  The journal records what the engine published, how requests were answered, when schedules armed
  their timers and ticked, which runs began and ended, which events were passed on to the lanes,
  which code of callers was called, what was written to the log, and what that code noted for
  itself.
-/
import TaskEngine.Log
import TaskEngine.TaskRecord

namespace TaskEngine

/-- How an accepted request was admitted. -/
inductive Admission where
  | started
  /-- It was folded into the owed run. -/
  | merged
deriving DecidableEq, Repr

def Admission.label : Admission → String
  | started => "started"
  | merged => "merged"

abbrev AdmissionResult := Except RequestError Admission

/-- How a call of the work came to its end. -/
inductive WorkExit where
  | returned
  | panicked
  /-- It was dropped when its time was up. -/
  | dropped
deriving DecidableEq, Repr

def WorkExit.label : WorkExit → String
  | returned => "returned"
  | panicked => "panic"
  | dropped => "dropped"

/-- What the code of callers notes when it is called. -/
inductive Trace where
  | work (call : Nat) (cancelled : Bool)
  | workEnd (call : Nat) (how : WorkExit)
  | before (hook : String) (run : Nat) (merged : Bool) (tags : List String)
  | after (hook : String) (run : Nat) (merged : Bool) (tags : List String) (outcome : Outcome)
  | onError (error : WorkError)
  | onPanic (info : String)
  | trigger (target : String) (result : AdmissionResult)
  | state (snapshot : Option Snapshot)
  | tokenCancelled

/-- The code of callers that the engine calls for a run. -/
inductive Callback where
  | engineBefore
  | taskBefore
  | work
  | engineAfter
  | taskAfter
  | onError (error : WorkError)
  | onPanic (info : String)
deriving DecidableEq, Repr

inductive Note where
  /-- An event was published; `task` is the task that it is about, if it is about one. -/
  | published (event : Event) (task : Option TaskId)
  /-- A request for a run was answered; `waiter` is the caller if it waits. -/
  | requested (task : TaskId) (waiter : Option WaiterId) (result : AdmissionResult)
  | armed (task : TaskId) (due : Instant)
  /-- The timer of a schedule fired; a request follows. -/
  | ticked (task : TaskId)
  | began (run : RunId) (merged : Bool)
  | finished (run : RunId) (outcome : Outcome)
  /-- An event was passed on to the lanes. -/
  | forwarded (event : Event)
  | called (callback : Callback) (run : RunId)
  | logged (record : LogRecord)
  | traced (task : String) (trace : Trace)

structure Entry where
  time : Instant
  note : Note

namespace Note

def published? : Note → Option Event
  | published e _ => some e
  | _ => none

def logged? : Note → Option LogRecord
  | logged r => some r
  | _ => none

def forwarded? : Note → Option Event
  | forwarded e => some e
  | _ => none

def traced? : Note → Option (String × Trace)
  | traced task trace => some (task, trace)
  | _ => none

end Note

end TaskEngine
