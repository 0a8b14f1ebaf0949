/-
  TaskEngine/Time/Instant.lean
  ============================
  **Points on the engine's clock.**

  Instants count nanoseconds from the moment the clock was started.  The clock can show instants
  below `Instant.limit` only: `after?` gives nothing when a sum would lie beyond it, and `later`
  (used to arm timers) falls back to a moment that no run waits for.

  The clock stands on whole milliseconds; a timer fires on the first of them that is not before its
  deadline (`nextTick`).
-/
import TaskEngine.Time.Duration

namespace TaskEngine

structure Instant where
  /-- Nanoseconds since the clock was started. -/
  ns : Nat
deriving DecidableEq, Repr, Inhabited

namespace Instant

def zero : Instant := ⟨0⟩

/-- The clock shows fewer than `2 ^ 63` seconds. -/
def limit : Nat := Nat.pow 2 63 * Duration.nsPerSecond

/-- The instant `d` after `t`, if the clock can show it. -/
def after? (t : Instant) (d : Duration) : Option Instant :=
  if t.ns + d.ns < limit then some ⟨t.ns + d.ns⟩ else none

/-- Thirty years: what a timer waits for when its deadline is beyond the clock. -/
def farAway : Duration := .ofParts (86400 * 365 * 30) 0

/-- The deadline of a timer of length `d` that is armed at `t`. -/
def later (t : Instant) (d : Duration) : Instant :=
  (t.after? d).getD ⟨t.ns + farAway.ns⟩

/-- The time from `earlier` to `t`, zero if `t` is not later. -/
def since (t earlier : Instant) : Duration := ⟨t.ns - earlier.ns⟩

def milliseconds (t : Instant) : Nat := t.ns / Duration.nsPerMillisecond

def isDue (deadline now : Instant) : Bool := deadline.ns ≤ now.ns

/-- The first whole millisecond that is not before `t`. -/
def nextTick (t : Instant) : Instant :=
  ⟨(t.ns + (Duration.nsPerMillisecond - 1)) / Duration.nsPerMillisecond
    * Duration.nsPerMillisecond⟩

theorem le_nextTick (t : Instant) : t.ns ≤ t.nextTick.ns := by
  simp only [nextTick, Duration.nsPerMillisecond]
  omega

theorem nextTick_lt (t : Instant) : t.nextTick.ns < t.ns + Duration.nsPerMillisecond := by
  simp only [nextTick, Duration.nsPerMillisecond]
  omega

theorem after?_eq_some {t u : Instant} {d : Duration} :
    t.after? d = some u ↔ t.ns + d.ns < limit ∧ u.ns = t.ns + d.ns := by
  unfold after?
  split <;> rename_i h
  · constructor
    · rintro ⟨⟩; exact ⟨h, rfl⟩
    · rintro ⟨-, hu⟩; cases u; simp_all
  · simp [h]

theorem after?_eq_none {t : Instant} {d : Duration} :
    t.after? d = none ↔ limit ≤ t.ns + d.ns := by
  unfold after?
  split <;> simp <;> omega

theorem isDue_iff (deadline now : Instant) : deadline.isDue now = true ↔ deadline.ns ≤ now.ns := by
  simp [isDue]

end Instant

end TaskEngine
