/-
  TaskEngine/Policy.lean
  ======================
  **What a task does when it is asked too often, and how its ticks are spaced.**

  A task runs at most a given number of times at once.  `Overlap` says what becomes of a request
  that finds it at that capacity; `TickPolicy` says where the next tick of a periodic task lies.
-/
namespace TaskEngine

/-- What becomes of a request that finds its task at capacity. -/
inductive Overlap where
  /-- It is turned away. -/
  | skip
  /-- It is folded into one further run, which starts when a run in flight ends. -/
  | merge
deriving DecidableEq, Repr, Inhabited

namespace Overlap

def label : Overlap → String
  | skip => "skip"
  | merge => "merge"

def all : List Overlap := [skip, merge]

def ofLabel? (s : String) : Option Overlap := all.find? (·.label == s)

end Overlap

/-- Where the next tick of a periodic task lies. -/
inductive TickPolicy where
  /-- One interval after a run ended. -/
  | fixedDelay
  /-- On the next multiple of the interval, counted from the first moment of the schedule. -/
  | fixedRate
deriving DecidableEq, Repr, Inhabited

namespace TickPolicy

def label : TickPolicy → String
  | fixedDelay => "fixed_delay"
  | fixedRate => "fixed_rate"

def description : TickPolicy → String
  | fixedDelay => "FixedDelay"
  | fixedRate => "FixedRate"

def all : List TickPolicy := [fixedDelay, fixedRate]

def ofLabel? (s : String) : Option TickPolicy := all.find? (·.label == s)

end TickPolicy

theorem Overlap.ofLabel?_label (o : Overlap) : Overlap.ofLabel? o.label = some o := by
  cases o <;> decide

theorem TickPolicy.ofLabel?_label (t : TickPolicy) : TickPolicy.ofLabel? t.label = some t := by
  cases t <;> decide

end TaskEngine
