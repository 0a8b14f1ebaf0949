/-
  TaskEngine/Error.lean
  =====================
  **What can go wrong, by cause.**

  `WorkError` is what the work of a task may answer; `RequestError` is why a request for a run was
  turned away, or how the awaited run ended; `RegistrationError` is why a task was not accepted;
  `LifecycleError` is what starting and stopping the engine may answer.  Each cause has a short
  label and a message.

  A request error that only passes on the answer of the work has the label and the message of that
  answer.
-/
import TaskEngine.Text.Quoted
import TaskEngine.Time.Duration

namespace TaskEngine

open Text

/-! ### Errors of the work itself -/

/-- What the work of a task may answer instead of success. -/
inductive WorkError where
  | timeout (limit : Duration)
  | failed (reason : String)
  /-- The work saw that its token was cancelled and gave up. -/
  | canceled
deriving DecidableEq, Repr

namespace WorkError

def label : WorkError → String
  | timeout _ => "task_timeout"
  | failed _ => "task_failed"
  | canceled => "task_canceled"

def message : WorkError → String
  | timeout limit => "timed out after " ++ limit.text
  | failed reason => "execution failed: " ++ reason
  | canceled => "context cancelled"

/-- Whether the error says no more than that the run was cancelled. -/
def isCancellation : WorkError → Bool
  | canceled => true
  | _ => false

end WorkError

/-! ### Errors of a request -/

/-- Why a request was turned away, or how the run it waited for ended. -/
inductive RequestError where
  | notRunning
  /-- The engine, or the task, is shutting down or stopped. -/
  | closed
  /-- The task is at capacity and skips. -/
  | skipped
  | notFound (name : String)
  | panicked (info : String)
  | work (error : WorkError)
  /-- The caller waited this long and left. -/
  | waitTimeout (limit : Duration)
  /-- The token of the caller was cancelled while it waited. -/
  | waitCanceled
deriving DecidableEq, Repr

namespace RequestError

def label : RequestError → String
  | notRunning => "trigger_not_running"
  | closed => "trigger_closed"
  | skipped => "trigger_skipped"
  | notFound _ => "trigger_not_found"
  | panicked _ => "run_panicked"
  | work e => e.label
  | waitTimeout _ => "wait_timeout"
  | waitCanceled => "wait_canceled"

def message : RequestError → String
  | notRunning => "manager is not running"
  | closed => "manager is closed"
  | skipped => "run skipped: task at capacity"
  | notFound name => "task " ++ quote name ++ " not found"
  | panicked info => "run panicked: " ++ info
  | work e => e.message
  | waitTimeout limit => "gave up waiting after " ++ limit.text
  | waitCanceled => "wait cancelled by caller"

/-- Whether the error says that no run was made, or joined, for the request. -/
def isRejection : RequestError → Bool
  | notRunning | closed | skipped | notFound _ => true
  | panicked _ | work _ | waitTimeout _ | waitCanceled => false

end RequestError

/-- What a caller that waits for a run is told in the end. -/
abbrev WaitResult := Except RequestError Unit

/-! ### Errors of a registration -/

/-- Why a task was not accepted. -/
inductive RegistrationError where
  /-- A task has to be allowed to run at least once at a time. -/
  | invalidCapacity
  /-- A periodic task needs an interval. -/
  | invalidInterval
  | duplicateName (name : String)
  | closed
deriving DecidableEq, Repr

namespace RegistrationError

def label : RegistrationError → String
  | invalidCapacity => "register_invalid_max_concurrent"
  | invalidInterval => "register_invalid_interval"
  | duplicateName _ => "register_duplicate_name"
  | closed => "register_closed"

def message : RegistrationError → String
  | invalidCapacity => "max_concurrent must be greater than zero"
  | invalidInterval => "interval must be greater than zero"
  | duplicateName name => "task " ++ quote name ++ " already registered"
  | closed => "manager is closed"

end RegistrationError

/-! ### Errors of starting and stopping -/

/-- What starting or stopping the engine may answer instead of success. -/
inductive LifecycleError where
  /-- The bound of a shutdown was reached; `stuck` names the tasks with runs in flight. -/
  | graceExceeded (grace : Duration) (stuck : List String)
  | closed
deriving DecidableEq, Repr

namespace LifecycleError

def label : LifecycleError → String
  | graceExceeded .. => "runtime_grace_exceeded"
  | closed => "runtime_closed"

def message : LifecycleError → String
  | graceExceeded grace stuck =>
      "shutdown timeout " ++ grace.text ++ " exceeded; stuck: " ++ quoteList stuck
  | closed => "manager is closed"

end LifecycleError

abbrev LifecycleResult := Except LifecycleError Unit

end TaskEngine
