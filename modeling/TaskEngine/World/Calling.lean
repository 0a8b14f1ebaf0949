/-
  TaskEngine/World/Calling.lean
  =============================
  **Calls of the engine that take time.**

  Shutting down, and waiting for a run with a limit, are calls that take turns of their own.  A
  call takes its first turn when it is made; so a shutdown closes the engine, and a request is
  admitted, there and then.  A caller that waits for a run hears of its end first: a limit reached
  at the same moment does not count.
-/
import TaskEngine.World.State

namespace TaskEngine

namespace World

def shutdownStage (now : Instant) : Engine.ShutdownState → CallStage
  | .ok s => .shuttingDown s
  | .error result => .answered now (.lifecycle result)

/-- The stage of a call that waits for a run, as things stand. -/
def waitStage (e : Engine) (waiter : WaiterId) (limit : WaitLimit) : CallStage :=
  match e.delivery? waiter with
  | some d => .answered e.now (.wait d.result)
  | none =>
      match limit with
      | .deadline due d =>
          if due.isDue e.now then .answered e.now (.wait (.error (.waitTimeout d)))
          else .waiting waiter limit
      | .token t =>
          if e.isCancelled t then .answered e.now (.wait (.error .waitCanceled))
          else .waiting waiter limit

/-- The engine once a call has come to a stage: a caller that is no longer waiting has left. -/
def leaveIfAnswered (e : Engine) (waiter : WaiterId) : CallStage → Engine
  | .answered .. => if (e.delivery? waiter).isSome then e else e.detach waiter
  | .shuttingDown _ | .waiting .. => e

/-- Takes up a call at a stage; it is known by its number afterwards. -/
def openCall (w : World) (stage : CallStage) (blocking : Bool) : World × Nat :=
  ({ w with
     calls := w.calls ++ [{ id := w.nextCall, stage, blocking }]
     nextCall := w.nextCall + 1 }, w.nextCall)

/-- Calls for a shutdown within the grace period, or until a token is cancelled. -/
def callShutdown (w : World) (token : Option Token) (blocking : Bool) : World × Nat :=
  let (engine, state) := match token with
    | none => w.engine.shutdownWithin
    | some t => w.engine.shutdownUntil t
  { w with engine }.openCall (shutdownStage w.now state) blocking

/-- Asks for a run of task `t` and waits for it with a limit. -/
def callWait (w : World) (t : TaskId) (limit : WaitLimit) : World × Nat :=
  match w.engine.requestWaiting t with
  | (engine, _, .error err) =>
      { w with engine }.openCall (.answered w.now (.wait (.error err))) false
  | (engine, waiter, .ok _) =>
      let stage := waitStage engine waiter limit
      { w with engine := leaveIfAnswered engine waiter stage }.openCall stage false

/-- Asks for a run of the task with a name and waits for it with a limit. -/
def callWaitByName (w : World) (name : String) (limit : WaitLimit) : World × Nat :=
  match w.engine.lookup? name with
  | some t => w.callWait t limit
  | none => w.openCall (.answered w.now (.wait (.error (.notFound name)))) false

def call? (w : World) (id : Nat) : Option Call := w.calls.find? (·.id == id)

def setStage (w : World) (id : Nat) (stage : CallStage) : World :=
  { w with calls := w.calls.map fun c => if c.id = id then { c with stage } else c }

def removeCall (w : World) (id : Nat) : World :=
  { w with calls := w.calls.filter (·.id != id) }

/-- A call is given up; it notices at its next turn. -/
def abortCall (w : World) (id : Nat) : World :=
  { w with calls := w.calls.map fun c => if c.id = id then { c with aborted := true } else c }

/-- What is left of a call that was given up: a waiting caller has left. -/
def dropCall (w : World) (c : Call) : World :=
  match c.stage with
  | .waiting waiter _ => (w.onEngine (·.detach waiter)).removeCall c.id
  | .shuttingDown _ | .answered .. => w.removeCall c.id

def turnCall (w : World) (id : Nat) : World :=
  match w.call? id with
  | none => w
  | some c =>
      if c.aborted then w.dropCall c
      else match c.stage with
        | .shuttingDown s =>
            let (engine, state) := w.engine.turnShutdown s
            { w with engine }.setStage id (shutdownStage w.now state)
        | .waiting waiter limit =>
            let stage := waitStage w.engine waiter limit
            (w.onEngine (leaveIfAnswered · waiter stage)).setStage id stage
        | .answered .. => w

/-- Whether a turn of a call would change anything. -/
def canCall (w : World) (c : Call) : Bool :=
  c.aborted || match c.stage with
    | .shuttingDown s => w.engine.canTurnShutdown s
    | .waiting waiter limit =>
        (w.engine.delivery? waiter).isSome || match limit with
          | .deadline due _ => due.isDue w.now
          | .token t => w.engine.isCancelled t
    | .answered .. => false

def callIsLive (c : Call) : Bool :=
  match c.stage with
  | .shuttingDown _ | .waiting .. => true
  | .answered .. => c.aborted

def callAlarm? (c : Call) : Option Instant :=
  match c.stage with
  | .shuttingDown s => match s.bound with
    | .deadline due => some due
    | .token _ => none
  | .waiting _ (.deadline due _) => some due
  | .waiting _ (.token _) | .answered .. => none

def callResult? (w : World) (id : Nat) : Option (Instant × CallResult) :=
  (w.call? id).bind fun c => match c.stage with
    | .answered time result => some (time, result)
    | .shuttingDown _ | .waiting .. => none

end World

end TaskEngine
