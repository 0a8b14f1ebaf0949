/-
  TaskEngine/Machine.lean
  =======================
  **Cooperative processes on one thread, with a clock that only moves when all of them wait.**

  A `Machine` is a state with processes in it.  A process is either able to take a turn or waits;
  a turn changes the state and may make other processes able, or add new ones.  Any order of turns
  is possible (`Machine.Step`); the `Executor` picks one: processes take turns in the order in
  which they became able, and of those that became able together the one that has waited longest
  comes first.

  Time stands still while a process is able.  Then the clock moves to the next whole millisecond on
  which a timer fires.
-/
import TaskEngine.Time.Instant

namespace TaskEngine

/-- A state with processes in it, and a clock. -/
structure Machine (σ ι : Type) where
  /-- The processes that have not ended, in the order of their making. -/
  live : σ → List ι
  /-- Whether a process may take a turn. -/
  able : σ → ι → Bool
  turn : ι → σ → σ
  /-- The deadlines that processes wait for. -/
  alarms : σ → List Instant
  now : σ → Instant
  setNow : Instant → σ → σ
  /-- How many turns are taken at most before time moves on.  Processes that keep each other able
  for ever are cut off there. -/
  patience : σ → Nat

/-- One process takes a turn, or the clock moves on. -/
inductive Machine.Step {σ ι : Type} (m : Machine σ ι) : σ → σ → Prop where
  | turn (s : σ) (i : ι) (live : i ∈ m.live s) (able : m.able s i = true) : Step m s (m.turn i s)
  | clock (s : σ) (t : Instant) (later : (m.now s).ns ≤ t.ns) : Step m s (m.setNow t s)

/-- A state with the processes that are about to take a turn, and those that wait. -/
structure Executor (σ ι : Type) where
  state : σ
  /-- The processes about to take a turn, the next one first. -/
  ready : List ι := []
  /-- The processes that wait, the one that has waited longest first. -/
  parked : List ι := []

namespace Executor

variable {σ ι : Type} [BEq ι] (m : Machine σ ι)

/-- Queues up the processes that have become able. -/
def refresh (x : Executor σ ι) : Executor σ ι :=
  let known := x.ready ++ x.parked
  let waiting := x.parked ++ (m.live x.state).filter (!known.contains ·)
  { x with
    ready := x.ready ++ waiting.filter (m.able x.state)
    parked := waiting.filter (!m.able x.state ·) }

/-- Changes the state from outside. -/
def update (f : σ → σ) (x : Executor σ ι) : Executor σ ι := refresh m { x with state := f x.state }

def step? (x : Executor σ ι) : Option (Executor σ ι) :=
  match x.ready with
  | [] => none
  | i :: ready =>
      let state := m.turn i x.state
      let parked := if (m.live state).contains i then x.parked ++ [i] else x.parked
      some (refresh m { state, ready, parked })

/-- Lets processes take turns until all of them wait. -/
def settleWithin : (turns : Nat) → Executor σ ι → Executor σ ι
  | 0, x => x
  | turns + 1, x =>
      match step? m x with
      | none => x
      | some x => settleWithin turns x

def settle (x : Executor σ ι) : Executor σ ι := settleWithin m (m.patience x.state) x

/-! ### Time -/

/-- The first moment after now at which a timer fires. -/
def nextAlarm? (x : Executor σ ι) : Option Instant :=
  let now := m.now x.state
  let pending := ((m.alarms x.state).map (·.nextTick)).filter fun t => now.ns < t.ns
  pending.foldl (fun best t =>
    match best with
    | some b => if t.ns < b.ns then some t else some b
    | none => some t) none

def advance (t : Instant) (x : Executor σ ι) : Executor σ ι := update m (m.setNow t) x

/-- Moves from alarm to alarm until `goal` is reached, at most `jumps` times. -/
def sleepWithin (goal : Instant) : (jumps : Nat) → Executor σ ι → Executor σ ι
  | 0, x => settle m x
  | jumps + 1, x =>
      let x := settle m x
      match nextAlarm? m x with
      | some t =>
          if t.ns < goal.ns then sleepWithin goal jumps (advance m t x)
          else settle m (advance m goal x)
      | none => settle m (advance m goal x)

/-- Lets a length of time pass.  Every jump takes at least a millisecond, which bounds them. -/
def sleep (d : Duration) (x : Executor σ ι) : Executor σ ι :=
  let now := m.now x.state
  let goal := (now.later d).nextTick
  if goal.ns ≤ now.ns then settle m x
  else sleepWithin m goal ((goal.since now).ns / Duration.nsPerMillisecond) x

/-- The end of a wait without an answer: what is left of its limit passes. -/
def giveUp (limit : Option Instant) (x : Executor σ ι) : Executor σ ι :=
  match limit with
  | some t => settle m (advance m t x)
  | none => x

/-- Lets processes and time go on until `poll` has an answer, looking whenever all processes wait;
gives up after `rounds` looks, or when no timer is left that fires within the limit. -/
def awaitWithin {α : Type} (poll : σ → σ × Option α) (limit : Option Instant) :
    (rounds : Nat) → Executor σ ι → Executor σ ι × Option α
  | 0, x => (x, none)
  | rounds + 1, x =>
      let x := settle m x
      let (state, answer) := poll x.state
      let x := refresh m { x with state }
      match answer with
      | some a => (x, some a)
      | none =>
          if x.ready.isEmpty then
            match (nextAlarm? m x).filter fun t => limit.all (t.ns ≤ ·.ns) with
            | some t => awaitWithin poll limit rounds (advance m t x)
            | none => (giveUp m limit x, none)
          else awaitWithin poll limit rounds x

/-- Waits for an answer, for at most `limit` if there is one. -/
def await {α : Type} (poll : σ → σ × Option α) (limit : Option Duration) (x : Executor σ ι) :
    Executor σ ι × Option α :=
  awaitWithin m poll (limit.map fun d => ((m.now x.state).later d).nextTick) (m.patience x.state) x

end Executor

end TaskEngine
