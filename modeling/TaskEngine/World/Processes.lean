/-
  TaskEngine/World/Processes.lean
  ===============================
  **Who takes turns in a world.**

  The processes of a world are the workers of the lanes, the pump, the watcher of the run token,
  the schedules, the runs, the calls under way and the processes that watch the token of a run.
-/
import TaskEngine.Machine
import TaskEngine.World.Calling
import TaskEngine.World.Running

namespace TaskEngine

inductive Process where
  | worker (lane : Nat)
  | pump
  | watcher
  | schedule (task : TaskId)
  | run (id : RunId)
  | call (id : Nat)
  | sentinel (id : Nat)
deriving DecidableEq, Repr

namespace World

/-- A process that watches the token of a run notes its cancellation, and ends. -/
def turnSentinel (w : World) (id : Nat) : World :=
  match w.sentinels.find? (·.id == id) with
  | none => w
  | some s =>
      if w.engine.isCancelled s.token then
        { w with sentinels := w.sentinels.filter (·.id != id) }.trace s.task .tokenCancelled
      else w

/-- The processes that have not ended; a call that its caller waits for is not one of them. -/
def live (w : World) : List Process :=
  let e := w.engine
  (e.lanes.zipIdx.filter fun p => !p.1.isGone).map (fun p => .worker p.2)
    ++ (if e.pump.isAlive then [.pump] else [])
    ++ (if e.watching then [.watcher] else [])
    ++ (e.tasks.zipIdx.filter fun p => p.1.loop.isAlive).map (fun p => .schedule p.2)
    ++ e.runs.map (fun r => .run r.id)
    ++ (w.calls.filter fun c => callIsLive c && !c.blocking).map (fun c => .call c.id)
    ++ w.sentinels.map (fun s => .sentinel s.id)

def able (w : World) : Process → Bool
  | .worker i => (w.engine.lanes[i]?).any (·.canWork w.now)
  | .pump => w.engine.canPump
  | .watcher => w.engine.canWatch
  | .schedule t => (w.engine.tasks[t]?).any w.engine.canTurnLoop
  | .run id => (w.engine.run? id).any w.canRun
  | .call id => (w.call? id).any w.canCall
  | .sentinel id => (w.sentinels.find? (·.id == id)).any fun s => w.engine.isCancelled s.token

def turn : Process → World → World
  | .worker i, w => w.onEngine (·.workLane i)
  | .pump, w => w.onEngine (·.turnPump)
  | .watcher, w => w.onEngine (·.turnWatcher)
  | .schedule t, w => w.onEngine (·.turnLoop t)
  | .run id, w => w.turnRun id
  | .call id, w => w.turnCall id
  | .sentinel id, w => w.turnSentinel id

def alarms (w : World) : List Instant :=
  w.engine.lanes.filterMap (·.alarm?) ++ w.engine.tasks.filterMap Engine.loopAlarm?
    ++ w.engine.runs.flatMap runAlarms ++ w.calls.filterMap callAlarm?

def machine : Machine World Process where
  live := live
  able := able
  turn := turn
  alarms := alarms
  now := now
  setNow t w := w.onEngine fun e => { e with now := t }
  patience _ := Nat.pow 2 24

end World

end TaskEngine
