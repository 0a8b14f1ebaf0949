/-
  TaskEngine/Proofs/Survival.lean
  ===============================
  **Which subscribers keep their lanes.**

  A subscriber that panics over an event is reported, and its worker goes on with the next one.  But
  only what the subscriber does with the event is caught: not a panic of the call itself, before there
  is anything to wait for, and not one over being asked for its name, which the report needs.  Either
  gets the worker lost with its queue.

  A lane that keeps its worker is exact and accounts for all of its events; one that does not has a
  panic that was not reported (`Fanout.told_of_lost`).  So lanes are kept exactly as long as the worker
  survives what its subscriber makes of the events (`Fanout.keeps_lane_iff`).
-/
import TaskEngine.Proofs.Accounting

namespace TaskEngine

namespace Lane

variable {l : Lane}

/-! ## Kept lanes -/

/-- The worker ends only when the lane is closed and nothing is left in it; what was taken has been
dealt with, in order and once, or is held; and one report tells of each panic. -/
structure KeepsOn (l : Lane) (reports : List Event) : Prop where
  survives : l.isGone = true → l.isOpen = false ∧ l.held = []
  handles : l.accepted.reverse = l.dealt ++ l.held
  /-- Nothing is held for ever. -/
  rests : (∀ later, l.canWork later = false) → l.held = []
  told : (reports.filter (·.kind = .subscriberPanicked)).Perm (l.subscriber.panicReports l.dealt)

theorem held_of_isGone (gone : l.isGone = true) : l.held = l.queue := by
  rw [held, inHand, worker_of_isGone gone, List.nil_append]

theorem Exact.survives (exact' : l.Exact) (gone : l.isGone = true) :
    l.isOpen = false ∧ l.held = [] := by
  rw [held_of_isGone gone]
  exact exact'.ended gone

/-- A worker that has nothing to do, now and later, has nothing in its hand or its queue. -/
theorem Exact.rests (exact' : l.Exact) (resting : ∀ later, l.canWork later = false) :
    l.held = [] := by
  cases worker : l.worker with
  | gone => exact (exact'.survives (by rw [isGone, worker]; rfl)).2
  | waiting =>
      have idle := resting .zero
      rw [canWork, worker, Bool.or_eq_false_iff] at idle
      rw [held_waiting worker]
      simpa using idle.1
  | handling e due =>
      have idle := resting due
      rw [canWork, worker] at idle
      cases idle.symm.trans ((Instant.isDue_iff ..).mpr (Nat.le_refl _))

end Lane

namespace Fanout

/-- Among what is told of a lane, the panics are told by the reports of panics. -/
theorem panics_of_told {s : Subscriber} {events reports : List Event}
    {refused : List (Event × Refusal)}
    (told : reports.Perm (s.overflowReports refused ++ s.panicReports events)) :
    (reports.filter (·.kind = .subscriberPanicked)).Perm (s.panicReports events) := by
  have panics : (s.panicReports events).filter (·.kind = .subscriberPanicked) =
      s.panicReports events := by
    apply List.filter_eq_self.mpr
    intro report mem
    obtain ⟨p, -, rfl⟩ := List.mem_map.mp mem
    rfl
  have others : (s.overflowReports refused).filter (·.kind = .subscriberPanicked) = [] := by
    apply List.filter_eq_nil_iff.mpr
    intro report mem
    obtain ⟨p, -, rfl⟩ := List.mem_map.mp mem
    show ¬decide (EventKind.subscriberOverflow = .subscriberPanicked) = true
    decide
  have perm := told.filter (·.kind = .subscriberPanicked)
  rw [List.filter_append, panics, others, List.nil_append] at perm
  exact perm

section Accounts

variable {s : Subscriber} {l : Lane} {emitted reports : List Event}
  {refused : List (Event × Refusal)}

theorem keepsOn_of_exact (accounts : Lane.Accounts { subscriber := s } l emitted refused reports)
    (exact' : l.Exact) : l.KeepsOn reports := by
  have account := account_of_exact accounts exact'
  constructor
  · exact exact'.survives
  · rw [account.queued, ← exact'.dealt_append_inHand, List.append_assoc, Lane.held]
  · exact exact'.rests
  · rw [accounts.subscriber]
    exact panics_of_told account.reports

theorem exact_of_keepsOn (accounts : Lane.Accounts { subscriber := s } l emitted refused reports)
    (keeps : l.KeepsOn reports) : l.Exact := by
  refine accounts.fate.resolve_right fun lost => ?_
  obtain ⟨before, e, -, -, tells, more⟩ := told_of_lost accounts lost
  have told := keeps.told
  rw [accounts.subscriber] at told
  -- there is one report less than panics
  have length := ((panics_of_told tells).symm.trans told).length_eq
  rw [more] at length
  simp at length

end Accounts

/-- **A panicking subscriber keeps its lane exactly as long as its panics are caught.**  However emits,
turns of the workers and the passing of time follow each other: the lane of a subscriber is kept as
long as the subscriber panics neither at a call nor, over an event and then again, at being asked for
its name; after that the worker is gone with all that was in its queue, all panics before have been
reported, and this one has not. -/
theorem keeps_lane_iff (subscribers : List Subscriber) (busCapacity : Nat) (acts : List Act)
    (admitted : (create subscribers busCapacity).admits acts = true) {i : Nat} {s : Subscriber}
    (there : subscribers[i]? = some s) :
    let start := create subscribers busCapacity
    ∃ l, (start.after acts).lanes[i]? = some l ∧ l.subscriber = s ∧
      (l.KeepsOn (start.reportedBy i acts) ↔
        ∀ p ∈ s.receptions l.dealt, p.2 ≠ .refused ∧ p.2 ≠ .unnamed) ∧
      (¬l.KeepsOn (start.reportedBy i acts) → l.isGone = true ∧ l.queue = [] ∧
        ∃ before e, l.dealt = before ++ [e] ∧
          (s.reception (before.length + 1) e = .refused ∨
            s.reception (before.length + 1) e = .unnamed) ∧
          ((start.reportedBy i acts).filter (·.kind = .subscriberPanicked)).Perm
            (s.panicReports before)) := by
  intro start
  obtain ⟨l, later, accounts, -⟩ := accounts_lane subscribers busCapacity acts admitted there
  have keeps : l.KeepsOn (start.reportedBy i acts) ↔ l.Exact :=
    ⟨exact_of_keepsOn accounts, keepsOn_of_exact accounts⟩
  refine ⟨l, later, accounts.subscriber, ?_, ?_⟩
  · rw [keeps, exact_iff_endures accounts]
    exact forall₂_congr fun p _ => p.2.isSurvived_iff
  · intro given
    have lost : l.Lost := accounts.fate.resolve_left (mt keeps.mpr given)
    obtain ⟨before, e, dealt, fatal, tells, -⟩ := told_of_lost accounts lost
    refine ⟨lost.gone, lost.empty, before, e, dealt, ?_, panics_of_told tells⟩
    by_contra neither
    rw [(Reception.isSurvived_iff _).mpr (not_or.mp neither)] at fatal
    cases fatal

/-- A subscriber that panics over the first kind of event, and then over being asked for its name. -/
def nameless : Subscriber := { name := "s", panicsOn := [.taskAdded], losesName := true }

theorem keeps_lane_iff_calm :
    (create [nameless] 16).admits [.emit { kind := .runStarted }, .work 0] = true ∧
      ∃ l, ((create [nameless] 16).after [.emit { kind := .runStarted }, .work 0]).lanes[0]? = some l ∧
        l.KeepsOn ((create [nameless] 16).reportedBy 0 [.emit { kind := .runStarted }, .work 0]) := by
  have admitted : (create [nameless] 16).admits [.emit { kind := .runStarted }, .work 0] = true := by
    decide
  obtain ⟨l, there, -, keeps, -⟩ := keeps_lane_iff [nameless] 16 _ admitted (i := 0) (s := nameless) rfl
  have dealt : ((create [nameless] 16).after [.emit { kind := .runStarted }, .work 0]).lanes[0]?.map
      (·.dealt) = some [{ kind := .runStarted }] := by decide
  rw [there, Option.map_some, Option.some_inj] at dealt
  refine ⟨admitted, l, there, keeps.mpr ?_⟩
  rw [dealt]
  decide

/-- The subscriber panics, and the next event is lost: not every lane is kept. -/
theorem nameless_lane_lost :
    ¬∀ (subscribers : List Subscriber) (busCapacity : Nat) (acts : List Act),
      (create subscribers busCapacity).admits acts = true →
      ∀ (i : Nat) (l : Lane), ((create subscribers busCapacity).after acts).lanes[i]? = some l →
        l.KeepsOn ((create subscribers busCapacity).reportedBy i acts) := by
  intro kept
  let acts : List Act := [.emit { kind := .taskAdded }, .emit { kind := .runStarted }, .work 0]
  have admitted : (create [nameless] 16).admits acts = true := by decide
  have lane : ((create [nameless] 16).after acts).lanes[0]?.map (fun l => (l.isGone, l.isOpen)) =
      some (true, true) := by decide
  obtain ⟨l, there, is⟩ := Option.map_eq_some_iff.mp lane
  obtain ⟨gone, isOpen⟩ := Prod.mk.injEq .. |>.mp is
  have closed := ((kept [nameless] 16 acts admitted 0 l there).survives gone).1
  rw [isOpen] at closed
  cases closed

end Fanout

end TaskEngine
