/-
  TaskEngine/Engine/Lifecycle.lean
  ================================
  **Starting and stopping.**

  The phase only moves forward.  A running engine begins to stop when a shutdown is asked for or
  when its run token is cancelled from outside, whichever comes first; it has stopped once a
  shutdown has found nothing left to wait for.

  A shutdown waits for the runs, the schedules and the watcher to end, and then for the lanes to
  be drained, each no longer than its bound.  Running out of the first wait is an error that names
  the tasks with runs in flight; running out of the second is not.
-/
import TaskEngine.Engine.Admission
import TaskEngine.Engine.Feed

namespace TaskEngine

namespace Engine

/-! ### Start -/

/-- Puts the pump in charge of the lanes. -/
def startPump (e : Engine) : Engine :=
  match e.dispatch with
  | .buffered => { e with dispatch := .pumping, pump := .receiving }
  | .idle | .pumping => e

/-- Starts the engine; its runs hang on a fresh child of `token`. -/
def start (e : Engine) (token : Token) : Engine × LifecycleResult :=
  match e.phase with
  | .running => (e, .ok ())
  | .stopping | .stopped => (e, .error .closed)
  | .notStarted =>
      let (runToken, cancellation) := e.cancellation.child token
      let running := { e with phase := .running, runToken, cancellation, watching := true }
      ((running.startPump.updateTasks fun t => t.activate.ensureLoop).publish
        { kind := .managerStarted }, .ok ())

/-! ### The way to the end -/

def beginStopping (e : Engine) : Engine :=
  ({ e with phase := .stopping }.cancel e.runToken).updateTasks (·.markStopping)

/-- What the watcher does once the run token is cancelled. -/
def turnWatcher (e : Engine) : Engine :=
  let e := { e with watching := false }
  match e.phase with
  | .running => e.beginStopping.publish
      { kind := .shutdownRequested, reason := some "run token cancelled" }
  | .notStarted | .stopping | .stopped => e

def canWatch (e : Engine) : Bool := e.watching && e.isCancelled e.runToken

/-- Tells the parked callers of every task that the engine is closed. -/
def drainPending (e : Engine) : Engine :=
  (e.deliver (e.tasks.flatMap (·.parked)) (.answered (.error .closed))).updateTasks (·.forget)

def finalize (e : Engine) : Engine := e.drainPending.updateTasks (·.finalize)

/-! ### Shutdowns -/

inductive Bound where
  | deadline (due : Instant)
  | token (t : Token)
deriving DecidableEq, Repr

inductive ShutdownStage where
  /-- The runs, the schedules and the watcher. -/
  | draining
  | awaitingPump
  | awaitingWorkers
deriving DecidableEq, Repr

structure Shutdown where
  bound : Bound
  /-- The bound as a length of time, zero if it is a token. -/
  grace : Duration
  stage : ShutdownStage := .draining
deriving DecidableEq, Repr

abbrev ShutdownState := Except LifecycleResult Shutdown

def boundReached (e : Engine) : Bound → Bool
  | .deadline due => due.isDue e.now
  | .token t => e.isCancelled t

/-- The last wait of a shutdown; running out of it is no error. -/
def turnFlush (e : Engine) (s : Shutdown) : ShutdownState :=
  let flushed := match s.stage with
    | .draining => false
    | .awaitingPump => e.pump = .ended
    | .awaitingWorkers => allGone e.lanes
  if flushed || e.boundReached s.bound then .error (.ok ()) else .ok s

/-- Begins the last wait of a shutdown, if nobody else has. -/
def beginFlush (e : Engine) (s : Shutdown) : Engine × ShutdownState :=
  match e.dispatch with
  | .idle => (e, .error (.ok ()))
  | .pumping =>
      let e := { e with dispatch := .idle }
      (e, e.turnFlush { s with stage := .awaitingPump })
  | .buffered =>
      let e := { e with dispatch := .idle }.forwardAll.closeLanes
      (e, e.turnFlush { s with stage := .awaitingWorkers })

def stuck (e : Engine) : List String :=
  (e.tasks.filter fun t => 0 < t.running).map (·.displayName)

/-- The bound of a shutdown is reached with something left to wait for. -/
def expire (e : Engine) (s : Shutdown) : Engine × ShutdownState :=
  (e.drainPending.publish
    { kind := .graceExceeded, reason := some (", ".intercalate e.stuck) },
    .error (.error (.graceExceeded s.grace e.stuck)))

/-- Nothing is left to wait for: the engine has stopped. -/
def complete (e : Engine) (s : Shutdown) : Engine × ShutdownState :=
  ({ e with phase := .stopped }.finalize.publish { kind := .allStoppedWithin }).beginFlush s

def turnShutdown (e : Engine) (s : Shutdown) : Engine × ShutdownState :=
  match s.stage with
  | .draining =>
      if e.isIdle then e.complete s
      else if e.boundReached s.bound then e.expire s
      else (e, .ok s)
  | .awaitingPump | .awaitingWorkers => (e, e.turnFlush s)

/-- Whether a turn of a shutdown would change anything. -/
def canTurnShutdown (e : Engine) (s : Shutdown) : Bool :=
  e.boundReached s.bound || match s.stage with
    | .draining => e.isIdle
    | .awaitingPump => e.pump = .ended
    | .awaitingWorkers => allGone e.lanes

/-- A shutdown is asked for, and takes its first turn. -/
def shutdown (e : Engine) (bound : Bound) (grace : Duration) : Engine × ShutdownState :=
  let s : Shutdown := { bound, grace }
  match e.phase with
  | .stopped => (e, .error (.ok ()))
  | .notStarted => { e with phase := .stopped }.finalize.beginFlush s
  | .running => (e.beginStopping.publish { kind := .shutdownRequested }).turnShutdown s
  | .stopping => e.turnShutdown s

/-- A shutdown bounded by the grace period of the settings. -/
def shutdownWithin (e : Engine) : Engine × ShutdownState :=
  e.shutdown (.deadline (e.now.later e.config.grace)) e.config.grace

def shutdownUntil (e : Engine) (t : Token) : Engine × ShutdownState := e.shutdown (.token t) .zero

end Engine

end TaskEngine
