/-
  TaskEngine/Outcome.lean
  =======================
  **How a run ended.**

  The answer of the work is classified once (`Outcome.ofAnswer`): a cancellation is an outcome of
  its own unless the task reports cancellations, in which case it is a failure.  What a waiting
  caller is told (`Outcome.waitResult`) depends also on whether the engine is closing, since then a
  cancelled run was cancelled by the shutdown.
-/
import TaskEngine.Error

namespace TaskEngine

inductive Outcome where
  | succeeded
  /-- The work answered an error that counts as a failure. -/
  | failed (error : WorkError)
  | panicked (info : String)
  /-- The work gave up because it was cancelled, and the task does not report that. -/
  | canceled (error : WorkError)
deriving DecidableEq, Repr

namespace Outcome

/-- Classifies the answer of the work. -/
def ofAnswer (reportCancellations : Bool) : Except WorkError Unit → Outcome
  | .ok _ => succeeded
  | .error e => if e.isCancellation && !reportCancellations then canceled e else failed e

def label : Outcome → String
  | succeeded => "succeeded"
  | failed _ => "failed"
  | panicked _ => "panicked"
  | canceled _ => "canceled"

def isFailure : Outcome → Bool
  | failed _ | panicked _ => true
  | succeeded | canceled _ => false

/-- What the callers that waited for the run are told. -/
def waitResult (closing : Bool) : Outcome → WaitResult
  | succeeded => .ok ()
  | failed e => .error (if closing && e.isCancellation then .closed else .work e)
  | panicked info => .error (.panicked info)
  | canceled e => .error (if closing then .closed else .work e)

/-- The text kept as the last error of a task, if the outcome is a failure. -/
def errorText? : Outcome → Option String
  | failed e => some e.message
  | panicked info => some ("panic: " ++ info)
  | succeeded | canceled _ => none

theorem errorText?_isSome (o : Outcome) : o.errorText?.isSome = o.isFailure := by
  cases o <;> rfl

end Outcome

end TaskEngine
