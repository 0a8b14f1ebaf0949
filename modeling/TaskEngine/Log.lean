/-
  TaskEngine/Log.lean
  ===================
  **Log records.**

  A record has a level, a message and named fields that hold a text or a number.  Three places
  write them: the log writer among the subscribers (one record for every event,
  `LogRecord.ofEvent`), the default handler (`LogRecord.ofWorkError`, `LogRecord.ofWorkPanic`),
  and the guard around callbacks (`LogRecord.ofCallbackPanic`).
-/
import TaskEngine.Error
import TaskEngine.Event

namespace TaskEngine

inductive LogLevel where
  | error | warn | info | debug | trace
deriving DecidableEq, Repr

def LogLevel.label : LogLevel → String
  | error => "ERROR"
  | warn => "WARN"
  | info => "INFO"
  | debug => "DEBUG"
  | trace => "TRACE"

inductive LogValue where
  | text (s : String)
  | number (n : Nat)
deriving DecidableEq, Repr

structure LogRecord where
  level : LogLevel
  message : String
  fields : List (String × LogValue) := []
deriving DecidableEq, Repr

namespace LogRecord

def text? (r : LogRecord) (key : String) : Option String :=
  match r.fields.lookup key with
  | some (.text s) => some s
  | _ => none

/-- A field for a number that may be missing. -/
def optional (key : String) (n : Option Nat) : List (String × LogValue) :=
  match n with
  | some n => [(key, .number n)]
  | none => []

def ofEvent (e : Event) : LogRecord :=
  let task := LogValue.text (e.task.getD "")
  let reason := LogValue.text (e.reason.getD "")
  let run := optional "run" e.run
  let elapsed := optional "elapsed_ms" e.elapsedMs
  match e.kind with
  | .managerStarted => { level := .info, message := "manager started" }
  | .shutdownRequested => { level := .info, message := "shutdown requested" }
  | .allStoppedWithin => { level := .info, message := "all tasks stopped within grace" }
  | .graceExceeded =>
      { level := .error, message := "shutdown grace exceeded", fields := [("stuck", reason)] }
  | .taskAdded =>
      { level := .info, message := "task added", fields := [("task", task), ("schedule", reason)] }
  | .runStarted => { level := .info, message := "run started", fields := ("task", task) :: run }
  | .runSucceeded =>
      { level := .info, message := "run succeeded", fields := ("task", task) :: run ++ elapsed }
  | .runFailed =>
      { level := .warn, message := "run failed",
        fields := ("task", task) :: run ++ elapsed ++ [("reason", reason)] }
  | .runPanicked =>
      { level := .error, message := "run panicked",
        fields := ("task", task) :: run ++ elapsed ++ [("reason", reason)] }
  | .runCanceled => { level := .info, message := "run canceled", fields := ("task", task) :: run }
  | .runSkipped => { level := .debug, message := "run skipped", fields := [("task", task)] }
  | .runMerged => { level := .debug, message := "run merged", fields := [("task", task)] }
  | .tickScheduled =>
      { level := .trace, message := "tick scheduled",
        fields := ("task", task) :: optional "delay_ms" e.delayMs }
  | .subscriberOverflow =>
      { level := .warn, message := "subscriber overflow",
        fields := [("subscriber", task), ("reason", reason)] }
  | .subscriberPanicked =>
      { level := .error, message := "subscriber panicked",
        fields := [("subscriber", task), ("reason", reason)] }

/-- The default handler's record of a failed run. -/
def ofWorkError (task : String) (e : WorkError) : LogRecord :=
  { level := .error, message := "task run failed",
    fields := [("task", .text task), ("label", .text e.label), ("error", .text e.message)] }

/-- The default handler's record of a panicked run. -/
def ofWorkPanic (task info : String) : LogRecord :=
  { level := .error, message := "task run panicked",
    fields := [("task", .text task), ("panic", .text info)] }

/-- The record of a hook or handler that panicked. -/
def ofCallbackPanic (task callback info : String) : LogRecord :=
  { level := .error, message := "callback panicked",
    fields := [("task", .text task), ("callback", .text callback), ("panic", .text info)] }

end LogRecord

end TaskEngine
