/-
  TaskEngine/Proofs/Fates.lean
  ============================
  **What becomes of a lane.**

  A worker survives what its subscriber makes of an event if the subscriber handles it, or panics over it
  and gives its name.  It does not survive a subscriber that panics at the call, or panics over the event
  and again when it is asked for its name.

  A lane is exact as long as its worker has survived everything: what was taken is what the subscriber
  was given and then what is in the queue (`Lane.Exact`).  Afterwards it is lost, with what was in the
  queue (`Lane.Lost`).  A turn of the worker leads from the one to the one or the other, and reports
  every panic that the worker survives (`Lane.Exact.work`); nothing leads back.
-/
import TaskEngine.Proofs.Lanes

namespace TaskEngine

namespace Lane

/-- The events that the subscriber was given and has dealt with. -/
def dealt (l : Lane) : List Event :=
  match l.worker with
  | .handling .. => l.given.dropLast
  | .waiting | .gone => l.given

theorem dealt_of_waiting {l : Lane} (waits : l.worker = .waiting) : l.dealt = l.given := by
  rw [dealt, waits]

theorem dealt_of_isGone {l : Lane} (gone : l.isGone = true) : l.dealt = l.given := by
  rw [dealt, worker_of_isGone gone]

end Lane

/-! ## 1. What subscribers make of events -/

namespace Subscriber

variable {s : Subscriber} {e : Event} {events : List Event}

/-- What comes of the events, if they are the first that the subscriber is given. -/
def receptions (s : Subscriber) (events : List Event) : List (Event × Reception) :=
  (events.zipIdx 1).map fun p => (p.1, s.reception p.2 p.1)

theorem receptions_concat (s : Subscriber) (events : List Event) (e : Event) :
    s.receptions (events ++ [e]) =
      s.receptions events ++ [(e, s.reception (events.length + 1) e)] := by
  simp [receptions, List.zipIdx_append, Nat.add_comm]

/-- The reports of all panics over the events, one for each. -/
def panicReports (s : Subscriber) (events : List Event) : List Event :=
  ((s.receptions events).filter (·.2 != .handled)).map fun p => .subscriberPanic s.name (s.panicText p.1)

/-- The reports of the panics that are caught, and after which the subscriber gives its name. -/
def toldPanics (s : Subscriber) (events : List Event) : List Event :=
  ((s.receptions events).filter (·.2 == .panicked)).map fun p =>
    .subscriberPanic s.name (s.panicText p.1)

/-- The worker survives what comes of all of these events. -/
def Endures (s : Subscriber) (events : List Event) : Prop :=
  ∀ p ∈ s.receptions events, p.2.isSurvived = true

theorem endures_nil (s : Subscriber) : s.Endures [] := fun _ mem => absurd mem List.not_mem_nil

theorem endures_concat :
    s.Endures (events ++ [e]) ↔
      s.Endures events ∧ (s.reception (events.length + 1) e).isSurvived = true := by
  simp only [Endures, receptions_concat, List.forall_mem_append, List.forall_mem_singleton]

theorem toldPanics_concat (s : Subscriber) (events : List Event) (e : Event) :
    s.toldPanics (events ++ [e]) = s.toldPanics events ++
      if s.reception (events.length + 1) e = .panicked then
        [.subscriberPanic s.name (s.panicText e)]
      else [] := by
  by_cases panics : s.reception (events.length + 1) e = .panicked <;>
    simp [toldPanics, receptions_concat, panics]

/-- As long as the worker survives, every panic is told. -/
theorem toldPanics_of_endures (endures : s.Endures events) :
    s.toldPanics events = s.panicReports events := by
  have same : ∀ p ∈ s.receptions events, (p.2 == .panicked) = (p.2 != .handled) := by
    rintro ⟨e, met⟩ mem
    have survived : met.isSurvived = true := endures _ mem
    cases met with
    | handled => rfl
    | panicked => rfl
    | unnamed => cases survived
    | refused => cases survived
  rw [toldPanics, panicReports, List.filter_congr same]

/-- The panic that gets the worker lost is one more than are told. -/
theorem panicReports_of_fatal (endures : s.Endures events)
    (fatal : (s.reception (events.length + 1) e).isSurvived = false) :
    s.toldPanics (events ++ [e]) = s.panicReports events ∧
      s.panicReports (events ++ [e]) =
        s.panicReports events ++ [.subscriberPanic s.name (s.panicText e)] := by
  obtain ⟨panics, untold⟩ := Reception.ne_of_not_isSurvived fatal
  constructor
  · rw [toldPanics_concat, if_neg untold, List.append_nil, toldPanics_of_endures endures]
  · simp [panicReports, receptions_concat, panics]

end Subscriber

namespace Lane

variable {l : Lane} {e : Event} {now due : Instant} {rest : List Event}

/-! ## 2. Exact lanes and lost ones -/

/-- What was taken is what the subscriber was given, in order, and then what is in the queue, for
which there is room; and the worker, who has survived everything, ends only in a lane that is closed
and empty. -/
structure Exact (l : Lane) : Prop where
  endures : l.subscriber.Endures l.dealt
  queued : l.accepted.reverse = l.given ++ l.queue
  busy : ∀ e due, l.worker = .handling e due → l.given.getLast? = some e
  room : l.queue.length ≤ l.capacity
  ended : l.isGone = true → l.isOpen = false ∧ l.queue = []

/-- The worker did not survive the event that the subscriber was given last, and what waited then
will wait for ever. -/
structure Lost (l : Lane) : Prop where
  gone : l.isGone = true
  empty : l.queue = []
  order : l.given <+: l.accepted.reverse
  fatal : ∃ before e, l.given = before ++ [e] ∧ l.subscriber.Endures before ∧
    (l.subscriber.reception (before.length + 1) e).isSurvived = false

/-- What is true of every lane: it is exact or lost. -/
def Fated (l : Lane) : Prop := l.Exact ∨ l.Lost

theorem exact_fresh (s : Subscriber) : ({ subscriber := s } : Lane).Exact := by
  constructor <;> simp [given, dealt, isGone, Subscriber.endures_nil]

/-- The event in hand is the last that the subscriber was given. -/
theorem Exact.given_of_handling (exact : l.Exact) (busy : l.worker = .handling e due) :
    l.given = l.dealt ++ [e] := by
  obtain ⟨before, given⟩ := List.getLast?_eq_some_iff.mp (exact.busy e due busy)
  rw [dealt, busy, given, List.dropLast_concat]

theorem Exact.dealt_append_inHand (exact : l.Exact) : l.dealt ++ l.inHand = l.given := by
  cases worker : l.worker with
  | waiting => simp [dealt, inHand, worker]
  | gone => simp [dealt, inHand, worker]
  | handling e due => rw [exact.given_of_handling worker, inHand, worker]

theorem Lost.dealt_append_inHand (lost : l.Lost) : l.dealt ++ l.inHand = l.given := by
  rw [dealt_of_isGone lost.gone, inHand, worker_of_isGone lost.gone, List.append_nil]

/-- A lost lane is not exact: its worker has not survived everything. -/
theorem Lost.not_exact (lost : l.Lost) : ¬l.Exact := by
  intro exact
  obtain ⟨before, e, given, -, fatal⟩ := lost.fatal
  have endures := exact.endures
  rw [dealt_of_isGone lost.gone, given, Subscriber.endures_concat, fatal] at endures
  cases endures.2

/-! ## 3. Turns of the worker -/

/-- What a turn of the worker does, as far as the accounts go: every panic that the worker survives is
reported. -/
structure Turned (l : Lane) (result : Lane × List Event) : Prop where
  fate : result.1.Fated
  accepted : result.1.accepted = l.accepted
  subscriber : result.1.subscriber = l.subscriber
  told : l.subscriber.toldPanics result.1.dealt = l.subscriber.toldPanics l.dealt ++ result.2

theorem Exact.turned_self (exact : l.Exact) : Turned l (l, []) :=
  ⟨.inl exact, rfl, rfl, (List.append_nil _).symm⟩

theorem Turned.trans {first second : Lane × List Event} (turned : Turned l first)
    (next : Turned first.1 second) : Turned l (second.1, first.2 ++ second.2) := by
  have told := next.told
  rw [turned.subscriber, turned.told, List.append_assoc] at told
  exact ⟨next.fate, next.accepted.trans turned.accepted, next.subscriber.trans turned.subscriber, told⟩

/-- The subscriber is done with the event in its hand. -/
theorem Exact.delivered (exact : l.Exact) (busy : l.worker = .handling e due) :
    Turned l (l.delivered e) := by
  have given := exact.given_of_handling busy
  have number : l.reception e = l.subscriber.reception (l.dealt.length + 1) e := by
    have length := congrArg List.length given
    rw [reception, show l.handled.length = l.dealt.length + 1 by simpa [Lane.given] using length]
  have step := l.delivered_step e
  generalize l.delivered e = result at step ⊢
  -- what is dealt with afterwards, whatever came of the event
  have concat := l.subscriber.toldPanics_concat l.dealt e
  rw [← given] at concat
  have survived (met : (l.subscriber.reception (l.dealt.length + 1) e).isSurvived = true) :
      ({ l with worker := .waiting } : Lane).Exact := by
    have endures : l.subscriber.Endures l.given := by
      rw [given]
      exact Subscriber.endures_concat.mpr ⟨exact.endures, met⟩
    refine ⟨endures, exact.queued, ?_, exact.room, ?_⟩
    · intro _ _ busy
      cases busy
    · intro gone
      cases gone
  cases step with
  | lost fatal =>
      rw [number] at fatal
      have untold := (Reception.ne_of_not_isSurvived fatal).2
      refine ⟨.inr ⟨rfl, rfl, ?_, l.dealt, e, given, exact.endures, fatal⟩, rfl, rfl, ?_⟩
      · show l.given <+: l.accepted.reverse
        rw [exact.queued]
        exact List.prefix_append _ _
      · rw [if_neg untold] at concat
        exact concat
  | reported panics =>
      rw [number] at panics
      refine ⟨.inl (survived (by rw [panics]; rfl)), rfl, rfl, ?_⟩
      rw [if_pos panics] at concat
      exact concat
  | handled calm =>
      rw [number] at calm
      have untold : l.subscriber.reception (l.dealt.length + 1) e ≠ .panicked := by
        rw [calm]
        decide
      refine ⟨.inl (survived (by rw [calm]; rfl)), rfl, rfl, ?_⟩
      rw [if_neg untold] at concat
      exact concat

theorem delivered_of_alive (alive : ¬(l.delivered e).1.isGone = true) :
    (l.delivered e).1 = { l with worker := .waiting } := by
  have step := l.delivered_step e
  generalize l.delivered e = result at step alive ⊢
  cases step with
  | lost fatal => exact absurd rfl alive
  | reported panics => rfl
  | handled calm => rfl

/-- The subscriber is done with the event in its hand, and a worker that has survived it goes on. -/
theorem Exact.goOn (exact : l.Exact) (busy : l.worker = .handling e due)
    (go : Lane → Lane × List Event)
    (next : ∀ after : Lane, after.worker = .waiting → after.queue = l.queue → after.Exact →
      Turned after (go after)) :
    let done := l.delivered e
    Turned l (if done.1.isGone then done else ((go done.1).1, done.2 ++ (go done.1).2)) := by
  intro done
  have turned : Turned l done := exact.delivered busy
  by_cases gone : done.1.isGone = true
  · rw [if_pos gone]
    exact turned
  · rw [if_neg gone]
    have waits : done.1 = { l with worker := .waiting } := delivered_of_alive gone
    have exact' : done.1.Exact := turned.fate.resolve_right fun lost => gone lost.gone
    exact turned.trans (next done.1 (by rw [waits]) (by rw [waits]) exact')

/-- The lane with an event given to its subscriber, and the others still in the queue. -/
def give (l : Lane) (now : Instant) (e : Event) (rest : List Event) (due : Instant) : Lane :=
  { l with queue := rest, handled := (now, e) :: l.handled, worker := .handling e due }

theorem given_give (l : Lane) (now : Instant) (e : Event) (rest : List Event) (due : Instant) :
    (l.give now e rest due).given = l.given ++ [e] := by
  simp [give, given]

theorem dealt_give (l : Lane) (now : Instant) (e : Event) (rest : List Event) (due : Instant) :
    (l.give now e rest due).dealt = l.given := by
  show (l.give now e rest due).given.dropLast = l.given
  rw [given_give, List.dropLast_concat]

theorem Exact.give (exact : l.Exact) (waits : l.worker = .waiting) (queue : l.queue = e :: rest)
    (now due : Instant) : Turned l (l.give now e rest due, []) := by
  have given := l.given_give now e rest due
  have dealt := l.dealt_give now e rest due
  refine ⟨.inl ⟨?_, ?_, ?_, ?_, fun gone => nomatch gone⟩, rfl, rfl, ?_⟩
  · show l.subscriber.Endures (l.give now e rest due).dealt
    rw [dealt, ← dealt_of_waiting waits]
    exact exact.endures
  · show l.accepted.reverse = (l.give now e rest due).given ++ rest
    rw [given, exact.queued, queue, List.append_assoc, List.singleton_append]
  · intro event due' busy
    obtain ⟨rfl, -⟩ := Worker.handling.inj busy
    rw [given, List.getLast?_concat]
  · have room := exact.room
    rw [queue, List.length_cons] at room
    exact Nat.le_of_succ_le room
  · rw [dealt, dealt_of_waiting waits, List.append_nil]

theorem Exact.workThrough (exact : l.Exact) (waits : l.worker = .waiting) (now : Instant)
    {events : List Event} (queue : l.queue = events) : Turned l (l.workThrough now events) := by
  induction events generalizing l with
  | nil =>
      unfold Lane.workThrough
      refine ⟨.inl ⟨?_, ?_, ?_, Nat.zero_le _, ?_⟩, rfl, rfl, ?_⟩
      · have endures := exact.endures
        rw [dealt_of_waiting waits] at endures
        cases isOpen : l.isOpen <;> exact endures
      · rw [← queue]
        exact exact.queued
      · intro e due busy
        cases isOpen : l.isOpen <;> simp [isOpen] at busy
      · intro gone
        cases isOpen : l.isOpen <;> simp [isOpen, isGone] at gone ⊢
      · rw [dealt_of_waiting waits]
        cases isOpen : l.isOpen <;> exact (List.append_nil _).symm
  | cons e rest ih =>
      unfold Lane.workThrough
      dsimp only
      split
      · have first := exact.give waits queue now now
        have given : (l.give now e rest now).Exact := by
          refine first.fate.resolve_right fun lost => ?_
          cases lost.gone
        exact first.trans (given.goOn rfl (fun after => after.workThrough now rest)
          fun after waits queue exact => ih exact waits queue)
      · exact exact.give waits queue now _

/-- **A turn of the worker leaves an exact lane exact, or the worker is lost in it.** -/
theorem Exact.work (exact : l.Exact) (now : Instant) : Turned l (l.work now) := by
  cases worker : l.worker with
  | gone =>
      rw [Lane.work, worker]
      exact exact.turned_self
  | waiting =>
      rw [Lane.work, worker]
      exact exact.workThrough worker now rfl
  | handling e due =>
      rw [Lane.work, worker]
      dsimp only
      split
      · exact exact.goOn worker (fun after => after.workThrough now after.queue)
          fun after waits _ exact => exact.workThrough waits now rfl
      · exact exact.turned_self

/-! ## 4. Offers -/

/-- While events may come, an exact lane refuses one exactly if its queue is full. -/
theorem Exact.refusal?_eq_some_iff (exact : l.Exact) (isOpen : l.isOpen = true) (r : Refusal) :
    l.refusal? = some r ↔ r = .full ∧ l.queue.length = l.capacity := by
  have alive : l.isGone = false := by
    apply Bool.eq_false_iff.mpr
    intro gone
    rw [(exact.ended gone).1] at isOpen
    cases isOpen
  have room := exact.room
  simp only [refusal?, alive, Bool.false_eq_true, if_false]
  by_cases full : l.capacity ≤ l.queue.length
  · simp only [full, if_true, Option.some.injEq]
    constructor
    · intro is
      exact ⟨is.symm, by omega⟩
    · intro is
      exact is.1.symm
  · simp only [full, if_false]
    constructor
    · intro none
      cases none
    · intro is
      omega

theorem Exact.offer (exact : l.Exact) (e : Event) : (l.offer e).Exact := by
  cases room : l.refusal? with
  | some r =>
    rw [offer_of_refused room]
    exact exact
  | none =>
    have free : l.isGone = false ∧ l.queue.length < l.capacity := by
      by_cases gone : l.isGone = true
      · simp [refusal?, gone] at room
      · by_cases full : l.capacity ≤ l.queue.length
        · simp [refusal?, gone, full] at room
        · exact ⟨by simpa using gone, by omega⟩
    rw [offer_of_room room]
    constructor
    · exact exact.endures
    · show (e :: l.accepted).reverse = l.given ++ (l.queue ++ [e])
      rw [List.reverse_cons, exact.queued, List.append_assoc]
    · exact exact.busy
    · show (l.queue ++ [e]).length ≤ l.capacity
      rw [List.length_append, List.length_singleton]
      exact free.2
    · intro gone
      have gone' : l.isGone = true := gone
      rw [free.1] at gone'
      cases gone'

theorem Exact.close (exact : l.Exact) : l.close.Exact :=
  ⟨exact.endures, exact.queued, exact.busy, exact.room, fun gone => ⟨rfl, (exact.ended gone).2⟩⟩

theorem Lost.close (lost : l.Lost) : l.close.Lost :=
  ⟨lost.gone, lost.empty, lost.order, lost.fatal⟩

theorem Fated.offer (fate : l.Fated) (e : Event) : (l.offer e).Fated := by
  rcases fate with exact | lost
  · exact .inl (exact.offer e)
  · rw [offer_of_isGone lost.gone]
    exact .inr lost

theorem Fated.work (fate : l.Fated) (now : Instant) : (l.work now).1.Fated := by
  rcases fate with exact | lost
  · exact (exact.work now).fate
  · rw [work_of_isGone now lost.gone]
    exact .inr lost

theorem Fated.close (fate : l.Fated) : l.close.Fated := fate.imp Exact.close Lost.close

/-- The subscriber was given the first of the events that were taken, in order. -/
theorem Fated.order (fate : l.Fated) : l.given <+: l.accepted.reverse := by
  rcases fate with exact | lost
  · rw [exact.queued]
    exact List.prefix_append _ _
  · exact lost.order

theorem Fated.dealt_append_inHand (fate : l.Fated) : l.dealt ++ l.inHand = l.given :=
  fate.elim Exact.dealt_append_inHand Lost.dealt_append_inHand

end Lane

end TaskEngine
