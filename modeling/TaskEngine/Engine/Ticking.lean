/-
  TaskEngine/Engine/Ticking.lean
  ==============================
  **The schedules of periodic tasks.**

  A schedule alternates between arming its timer, which is announced, and asking for a run when
  the timer fires.  With fixed delay the next tick lies one interval after a run of the task ended
  that it has listened for since before its request; with fixed rate it lies on the next multiple
  of the interval, counted from the first turn (`nextAligned?`).  Cancelling the run token ends the
  schedule wherever it waits.

  A tick that the clock cannot show breaks the schedule off.
-/
import TaskEngine.Engine.Admission

namespace TaskEngine

/-- The largest distance from its base at which a tick of fixed rate is computed. -/
def maxOffset : Nat := Nat.pow 2 64 - 1

/-- The first multiple of `step` after `base` that lies strictly after `now`.  A tick one step from
now has to be on the clock too. -/
def nextAligned? (base : Instant) (step : Duration) (now : Instant) : Option Instant :=
  if now.ns < base.ns then some base
  else
    let multiple := ((now.ns - base.ns) / max step.ns 1 + 1) * max step.ns 1
    (now.after? step).map fun fallback => (base.after? ⟨min multiple maxOffset⟩).getD fallback

theorem nextAligned?_eq_none_iff {base now : Instant} {step : Duration} :
    nextAligned? base step now = none ↔
      base.isDue now = true ∧ Instant.limit ≤ now.ns + step.ns := by
  rw [Instant.isDue_iff]
  unfold nextAligned?
  split
  · simp only [reduceCtorEq, false_iff]
    omega
  · rw [Option.map_eq_none_iff, Instant.after?_eq_none]
    omega

namespace Engine

/-- Breaks a schedule off; nothing is tidied up. -/
def breakLoop (e : Engine) (t : TaskId) : Engine :=
  e.updateTask t fun task => { task with loop := .ended }

/-- Ends a schedule because the run token is cancelled. -/
def endLoop (e : Engine) (t : TaskId) : Engine :=
  e.updateTask t fun task => { task with nextRun := none, loop := .ended }.markStopping

/-- Arms the timer of a schedule, if there is a tick to wait for. -/
def armLoop (e : Engine) (t : TaskId) (task : TaskRecord) (base : Instant) (due? : Option Instant) :
    Engine :=
  match due? with
  | none => e.breakLoop t
  | some due =>
      let delay := due.since e.now
      ((e.updateTask t fun task =>
        { task with nextRun := e.now.after? delay, loop := .sleeping base due }).note
          (.armed t due)).publishAbout t
            (({ kind := .tickScheduled, task := some task.name } : Event).withDelay delay)

/-- A tick: the schedule asks for a run and finds out what to wait for next. -/
def tick (e : Engine) (t : TaskId) (task : TaskRecord) (every : Every) (base : Instant) : Engine :=
  match every.tick with
  | .fixedRate =>
      ((e.note (.ticked t)).request t none).1.armLoop t task base
        (nextAligned? base every.interval e.now)
  | .fixedDelay =>
      match (e.note (.ticked t)).request t none with
      | (e, .ok _) | (e, .error .skipped) =>
          e.updateTask t fun t => { t with loop := .listening base task.completions }
      | (e, .error _) => e.armLoop t task base (e.now.after? every.interval)

/-- What a schedule that sleeps does when it is looked at. -/
def passTick (e : Engine) (t : TaskId) (every : Every) : Engine :=
  match e.tasks[t]? with
  | none => e
  | some task =>
      match task.loop with
      | .sleeping base due =>
          if e.isCancelled e.runToken then e.endLoop t
          else if due.isDue e.now then e.tick t task every base
          else e
      | _ => e

def turnLoop (e : Engine) (t : TaskId) : Engine :=
  match e.tasks[t]? with
  | none => e
  | some task =>
      match task.spec.schedule, task.loop with
      | .every every, .fresh =>
          let first := if every.startImmediately then some e.now else e.now.after? every.interval
          (e.armLoop t task e.now first).passTick t every
      | .every every, .sleeping .. => e.passTick t every
      | .every every, .listening base seen =>
          if e.isCancelled e.runToken then e.endLoop t
          else if task.completions = seen then e
          else (e.armLoop t task base (task.completedAt.after? every.interval)).passTick t every
      | _, _ => e

/-- Whether a turn of the schedule would change anything. -/
def canTurnLoop (e : Engine) (task : TaskRecord) : Bool :=
  match task.loop with
  | .fresh => true
  | .sleeping _ due => e.isCancelled e.runToken || due.isDue e.now
  | .listening _ seen => e.isCancelled e.runToken || task.completions != seen
  | .absent | .ended => false

def loopAlarm? (task : TaskRecord) : Option Instant :=
  match task.loop with
  | .sleeping _ due => some due
  | _ => none

end Engine

end TaskEngine
