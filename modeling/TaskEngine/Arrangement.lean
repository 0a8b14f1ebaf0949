/-
  TaskEngine/Arrangement.lean
  ===========================
  **The order in which records are listed.**

  Records are listed by time, then by the task they are about (those about none first), then by
  rank; records that agree in all three keep the order in which they came.
-/
import TaskEngine.Journal

namespace TaskEngine

structure Place where
  time : Instant
  task : Option String
  rank : Nat
deriving DecidableEq, Repr

namespace Place

/-- Records about no task come before those about one; these are ordered by its name. -/
def taskLe : Option String → Option String → Bool
  | none, _ => true
  | some _, none => false
  | some a, some b => !decide (b < a)

def le (p q : Place) : Bool :=
  if p.time.ns = q.time.ns then
    if p.task = q.task then p.rank ≤ q.rank else taskLe p.task q.task
  else p.time.ns ≤ q.time.ns

/-- Ticks come last among the events of a moment. -/
def ofEvent (time : Instant) (e : Event) : Place where
  time := time
  task := e.task
  rank := if e.kind = .tickScheduled then 2 else 1

/-- Records of the handler and of the guard come first, those of ticks last. -/
def ofRecord (time : Instant) (r : LogRecord) : Place where
  time := time
  task := r.text? "task"
  rank :=
    if r.message ∈ ["task run failed", "task run panicked", "callback panicked"] then 0
    else if r.message = "tick scheduled" then 2
    else 1

end Place

def arrange {α : Type} (place : α → Place) (records : List α) : List α :=
  records.mergeSort fun a b => (place a).le (place b)

theorem arrange_perm {α : Type} (place : α → Place) (records : List α) :
    (arrange place records).Perm records :=
  List.mergeSort_perm ..

end TaskEngine
