/-
  TaskEngine/World/State.lean
  ===========================
  **An engine among its callers.**

  A world is an engine together with the code of callers that it runs: a hook around every run, a
  handler for failures, what each task's work has used up so far (its calls and the permits of its
  gate), calls of the engine that are under way as processes of their own, and processes that watch
  the token of a run.
-/
import TaskEngine.Engine.Completion
import TaskEngine.Engine.Lifecycle
import TaskEngine.Engine.Registry
import TaskEngine.Engine.Ticking

namespace TaskEngine

/-- What the work of one task has used up. -/
structure Workshop where
  calls : Nat := 0
  /-- The permits of its gate that nobody has taken. -/
  permits : Nat := 0
  /-- The runs that wait for a permit, in the order of arrival. -/
  line : List RunId := []
deriving DecidableEq, Repr

/-- What ends the wait of a caller that does not wait for ever. -/
inductive WaitLimit where
  | deadline (due : Instant) (limit : Duration)
  | token (t : Token)
deriving DecidableEq, Repr

inductive CallResult where
  | wait (result : WaitResult)
  | lifecycle (result : LifecycleResult)

inductive CallStage where
  | shuttingDown (s : Engine.Shutdown)
  /-- It waits for the run of a request that was admitted. -/
  | waiting (waiter : WaiterId) (limit : WaitLimit)
  | answered (time : Instant) (result : CallResult)

structure Call where
  id : Nat
  stage : CallStage
  /-- Whether the caller waits for it and does nothing else. -/
  blocking : Bool := false
  aborted : Bool := false

/-- A process that notes the cancellation of a run's token. -/
structure Sentinel where
  id : Nat
  task : String
  token : Token
deriving DecidableEq, Repr

/-- An engine among its callers. -/
structure World where
  engine : Engine
  /-- The hook around every run of every task. -/
  hook : Option Hook := none
  handler : Handler := .logging
  /-- For every task, what its work has used up. -/
  workshops : List Workshop := []
  calls : List Call := []
  nextCall : Nat := 0
  sentinels : List Sentinel := []
  nextSentinel : Nat := 0

namespace World

def create (config : Config) (subscribers : List Subscriber) (hook : Option Hook)
    (handler : Handler) : World where
  engine := .create config subscribers
  hook := hook
  handler := handler

def now (w : World) : Instant := w.engine.now

def onEngine (w : World) (f : Engine → Engine) : World := { w with engine := f w.engine }

def note (w : World) (n : Note) : World := w.onEngine (·.note n)

/-- Notes something for the code of callers that belongs to a task. -/
def trace (w : World) (task : String) (t : Trace) : World := w.note (.traced task t)

def log (w : World) (r : LogRecord) : World := w.note (.logged r)

def publishAbout (w : World) (t : TaskId) (e : Event) : World := w.onEngine (·.publishAbout t e)

def updateWorkshop (w : World) (t : TaskId) (f : Workshop → Workshop) : World :=
  { w with workshops := w.workshops.modify t f }

def add (w : World) (spec : Spec) : World × Except RegistrationError TaskId :=
  match w.engine.add spec with
  | (engine, .ok t) => ({ w with engine, workshops := w.workshops ++ [{}] }, .ok t)
  | (engine, .error err) => ({ w with engine }, .error err)

/-- Asks for a run by name, for code that belongs to `task`, and notes the answer. -/
def triggerFor (w : World) (task : String) (target : Option String) : World :=
  match target with
  | none => w
  | some target =>
      let (engine, result) := w.engine.trigger target
      { w with engine }.trace task (.trigger target result)

def release (w : World) (t : TaskId) (permits : Nat) : World :=
  w.updateWorkshop t fun s => { s with permits := s.permits + permits }

end World

end TaskEngine
