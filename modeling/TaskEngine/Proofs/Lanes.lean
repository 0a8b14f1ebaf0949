/-
  TaskEngine/Proofs/Lanes.lean
  ============================
  **What a lane may do with its events.**

  A lane holds the events of its queue and the one in the hand of its worker.  Offering an event
  adds at most that event; a turn of the worker adds none, and publishes reports of panics only, of
  which each goes back to an event that was held and over which the subscriber may panic.  So a lane
  that holds nothing its subscriber may panic over is silent.

  Events keep their order: what was accepted is what the subscriber was given and then what is in the
  queue, unless the worker was lost with its queue (`Lane.Steady`).
-/
import TaskEngine.Lane

namespace TaskEngine

/-- Whether the worker goes on after it. -/
def Reception.isSurvived : Reception → Bool
  | handled | panicked => true
  | unnamed | refused => false

theorem Reception.isSurvived_iff (r : Reception) :
    r.isSurvived = true ↔ r ≠ .refused ∧ r ≠ .unnamed := by
  cases r <;> decide

/-- What gets the worker lost is a panic, and not one that is reported. -/
theorem Reception.ne_of_not_isSurvived {r : Reception} (fatal : r.isSurvived = false) :
    r ≠ .handled ∧ r ≠ .panicked := by
  constructor
  · rintro rfl
    cases fatal
  · rintro rfl
    cases fatal

theorem Subscriber.kind_mem_panicsOn {s : Subscriber} {number : Nat} {e : Event}
    (panics : s.reception number e ≠ .handled) : e.kind ∈ s.panicsOn :=
  Decidable.byContradiction fun calm => panics (if_neg calm)

namespace Lane

variable {l : Lane} {e ev : Event} {now : Instant}

def inHand (l : Lane) : List Event :=
  match l.worker with
  | .handling e _ => [e]
  | .waiting | .gone => []

/-- The events that were taken and that the subscriber has not dealt with. -/
def held (l : Lane) : List Event := l.inHand ++ l.queue

theorem held_waiting (waits : l.worker = .waiting) : l.held = l.queue := by
  rw [held, inHand, waits, List.nil_append]

theorem held_handling {due : Instant} (busy : l.worker = .handling e due) :
    l.held = e :: l.queue := by
  rw [held, inHand, busy, List.singleton_append]

/-! ## 1. Offers -/

theorem offer_of_refused {r : Refusal} (refused : l.refusal? = some r) : l.offer e = l := by
  rw [offer, refused]

theorem offer_of_room (room : l.refusal? = none) :
    l.offer e = { l with queue := l.queue ++ [e], accepted := e :: l.accepted } := by
  rw [offer, room]

@[simp] theorem offer_subscriber (l : Lane) (e : Event) : (l.offer e).subscriber = l.subscriber := by
  unfold offer
  split <;> rfl

theorem held_offer (h : ev ∈ (l.offer e).held) : ev = e ∨ ev ∈ l.held := by
  cases room : l.refusal? with
  | some r =>
      rw [offer_of_refused room] at h
      exact .inr h
  | none =>
      rw [offer_of_room room] at h
      have parts : ev ∈ l.inHand ++ (l.queue ++ [e]) := h
      rw [← List.append_assoc, List.mem_append, List.mem_singleton] at parts
      exact parts.symm

/-! ## 2. Turns of the worker -/

/-- What holds between a lane, the events that it works on, and the outcome. -/
structure Worked (l : Lane) (events : List Event) (result : Lane × List Event) : Prop where
  subscriber : result.1.subscriber = l.subscriber
  isOpen : result.1.isOpen = l.isOpen
  accepted : result.1.accepted = l.accepted
  held : result.1.held ⊆ events
  reports : ∀ report ∈ result.2, report.kind = .subscriberPanicked ∧
    ∃ ev ∈ events, ev.kind ∈ l.subscriber.panicsOn

/-- What comes of the event that the subscriber was given last. -/
def reception (l : Lane) (e : Event) : Reception := l.subscriber.reception l.handled.length e

/-- What becomes of an event and its lane: the worker is lost, the panic is reported, or nothing. -/
inductive DeliveredStep (l : Lane) (e : Event) : Lane × List Event → Prop where
  | lost (fatal : (l.reception e).isSurvived = false) :
      DeliveredStep l e ({ l with worker := .gone, queue := [] }, [])
  | reported (panics : l.reception e = .panicked) : DeliveredStep l e
      ({ l with worker := .waiting }, [.subscriberPanic l.subscriber.name (l.subscriber.panicText e)])
  | handled (calm : l.reception e = .handled) : DeliveredStep l e ({ l with worker := .waiting }, [])

theorem delivered_step (l : Lane) (e : Event) : DeliveredStep l e (l.delivered e) := by
  unfold delivered
  split
  next calm => exact .handled calm
  next panics => exact .reported panics
  next lost => exact .lost (by rw [reception, lost]; rfl)
  next lost => exact .lost (by rw [reception, lost]; rfl)

theorem worked_delivered (l : Lane) (e : Event) : Worked l (e :: l.queue) (l.delivered e) := by
  have rest : l.queue ⊆ e :: l.queue := List.subset_cons_self e l.queue
  have step := l.delivered_step e
  generalize l.delivered e = result at step ⊢
  cases step with
  | lost fatal => exact ⟨rfl, rfl, rfl, List.nil_subset _, fun _ mem => absurd mem List.not_mem_nil⟩
  | reported panics =>
      refine ⟨rfl, rfl, rfl, rest, ?_⟩
      intro report mem
      rw [List.mem_singleton.mp mem]
      have kind : e.kind ∈ l.subscriber.panicsOn :=
        Subscriber.kind_mem_panicsOn fun calm => nomatch panics.symm.trans calm
      exact ⟨rfl, e, List.mem_cons_self, kind⟩
  | handled calm => exact ⟨rfl, rfl, rfl, rest, fun _ mem => absurd mem List.not_mem_nil⟩

/-- Going on with what is left. -/
theorem Worked.trans {events more : List Event} {first second : Lane × List Event}
    (h : Worked l events first) (next : Worked first.1 more second) (fewer : more ⊆ events) :
    Worked l events (second.1, first.2 ++ second.2) := by
  refine ⟨next.subscriber.trans h.subscriber, next.isOpen.trans h.isOpen,
    next.accepted.trans h.accepted, List.Subset.trans next.held fewer, ?_⟩
  intro report mem
  rcases List.mem_append.mp mem with mem | mem
  · exact h.reports report mem
  · obtain ⟨kind, ev, memEv, panics⟩ := next.reports report mem
    exact ⟨kind, ev, fewer memEv, h.subscriber ▸ panics⟩

theorem worked_workThrough (now : Instant) (events : List Event) (l : Lane) :
    Worked l events (l.workThrough now events) := by
  induction events generalizing l with
  | nil =>
      refine ⟨rfl, rfl, rfl, ?_, fun _ mem => absurd mem List.not_mem_nil⟩
      unfold workThrough
      cases l.isOpen <;> exact List.Subset.refl _
  | cons e rest ih =>
      unfold workThrough
      dsimp only
      split
      · have first := worked_delivered { l with queue := rest, handled := (now, e) :: l.handled } e
        have taken : Worked l (e :: rest)
            (delivered { l with queue := rest, handled := (now, e) :: l.handled } e) :=
          ⟨first.subscriber, first.isOpen, first.accepted, first.held, first.reports⟩
        split
        · exact taken
        · exact taken.trans (ih _) (List.subset_cons_self e rest)
      · exact ⟨rfl, rfl, rfl, List.Subset.refl _, fun _ mem => absurd mem List.not_mem_nil⟩

theorem queue_delivered (l : Lane) (e : Event) : (l.delivered e).1.queue ⊆ l.queue := by
  have step := l.delivered_step e
  generalize l.delivered e = result at step ⊢
  cases step with
  | lost fatal => exact List.nil_subset _
  | reported panics => exact List.Subset.refl _
  | handled calm => exact List.Subset.refl _

theorem worked_rest (l : Lane) : Worked l l.held (l, []) :=
  ⟨rfl, rfl, rfl, List.Subset.refl _, fun _ mem => absurd mem List.not_mem_nil⟩

/-- A turn of the worker adds no event, and reports panics over held events only. -/
theorem worked_work (now : Instant) (l : Lane) : Worked l l.held (l.work now) := by
  cases worker : l.worker with
  | gone =>
      rw [work, worker]
      exact worked_rest l
  | waiting =>
      rw [work, worker, held_waiting worker]
      exact worked_workThrough now l.queue l
  | handling e due =>
      have held := held_handling worker
      rw [work, worker]
      dsimp only
      split
      · have first := worked_delivered l e
        rw [← held] at first
        split
        · exact first
        · apply first.trans (worked_workThrough now _ _)
          rw [held]
          exact List.Subset.trans (queue_delivered l e) (List.subset_cons_self e l.queue)
      · exact worked_rest l

/-- Nothing that is held is a reason to panic: no reports. -/
theorem work_silent (silent : ∀ ev ∈ l.held, ev.kind ∉ l.subscriber.panicsOn) :
    (l.work now).2 = [] := by
  apply List.eq_nil_iff_forall_not_mem.mpr
  intro report mem
  obtain ⟨-, ev, memEv, panics⟩ := (worked_work now l).reports report mem
  exact silent ev memEv panics

theorem worker_of_isGone (gone : l.isGone = true) : l.worker = .gone := by
  simpa [isGone] using gone

theorem work_of_isGone (now : Instant) (gone : l.isGone = true) : l.work now = (l, []) := by
  rw [work, worker_of_isGone gone]

theorem isGone_work (gone : l.isGone = true) : (l.work now).1.isGone = true := by
  rw [work_of_isGone now gone]
  exact gone

/-- A worker of a closed lane that will never have anything to do again has ended. -/
theorem isGone_of_resting (now : Instant) (closed : l.isOpen = false)
    (resting : ∀ later, now.ns ≤ later.ns → l.canWork later = false) : l.isGone = true := by
  cases worker : l.worker with
  | gone => rw [isGone, worker]; rfl
  | waiting =>
      have idle := resting now (Nat.le_refl _)
      simp [canWork, worker, closed] at idle
  | handling e due =>
      have idle := resting ⟨max now.ns due.ns⟩ (Nat.le_max_left ..)
      rw [canWork, worker] at idle
      exact absurd ((Instant.isDue_iff ..).mpr (Nat.le_max_right ..)) (Bool.eq_false_iff.mp idle)

/-! ## 3. The order of the events -/

/-- The events that the subscriber was given, the oldest first. -/
def given (l : Lane) : List Event := (l.handled.map (·.2)).reverse

/-- Nothing overtakes: the subscriber was given the first of the events that were accepted, and the
others are in the queue, if the worker is not gone.  A closed lane whose worker waits for an event in
vain never had one. -/
structure Steady (l : Lane) : Prop where
  order : l.given <+: l.accepted.reverse
  busy : l.inHand ⊆ l.given
  queued : l.isGone = false → l.accepted.reverse = l.given ++ l.queue
  rests : l.isOpen = false → l.worker = .waiting → l.queue = [] → l.accepted = []

theorem steady_of_queued (queued : l.accepted.reverse = l.given ++ l.queue)
    (busy : l.inHand ⊆ l.given)
    (rests : l.isOpen = false → l.worker = .waiting → l.queue = [] → l.accepted = []) : l.Steady :=
  ⟨queued ▸ List.prefix_append _ _, busy, fun _ => queued, rests⟩

theorem steady_fresh (s : Subscriber) : ({ subscriber := s } : Lane).Steady :=
  steady_of_queued rfl (List.nil_subset _) fun _ _ _ => rfl

/-- A worker that is gone leaves its queue behind. -/
theorem steady_lost (order : l.given <+: l.accepted.reverse) :
    ({ l with worker := .gone, queue := [] } : Lane).Steady :=
  ⟨order, List.nil_subset _, (fun alive => nomatch alive), fun _ waits => nomatch waits⟩

theorem Steady.offer (h : l.Steady) (e : Event) : (l.offer e).Steady := by
  cases room : l.refusal? with
  | some r =>
      rw [offer_of_refused room]
      exact h
  | none =>
      have alive : l.isGone = false := by
        apply Bool.eq_false_iff.mpr
        intro gone
        simp [refusal?, gone] at room
      rw [offer_of_room room]
      apply steady_of_queued
      · show (e :: l.accepted).reverse = l.given ++ (l.queue ++ [e])
        rw [List.reverse_cons, h.queued alive, List.append_assoc]
      · exact h.busy
      · intro _ _ empty
        exact absurd empty (List.append_ne_nil_of_right_ne_nil _ (List.cons_ne_nil _ _))

theorem Steady.close (h : l.Steady)
    (rests : l.worker = .waiting → l.queue = [] → l.accepted = []) : l.close.Steady :=
  ⟨h.order, h.busy, h.queued, fun _ => rests⟩

theorem steady_workThrough (now : Instant) {events : List Event}
    (left : l.accepted.reverse = l.given ++ events) : (l.workThrough now events).1.Steady := by
  induction events generalizing l with
  | nil =>
      refine steady_of_queued left ?_ ?_
      · unfold workThrough
        cases l.isOpen <;> exact List.nil_subset _
      · intro closed waits _
        have closed' : l.isOpen = false := closed
        simp [workThrough, closed'] at waits
  | cons e rest ih =>
      let taken : Lane := { l with queue := rest, handled := (now, e) :: l.handled }
      have given : taken.given = l.given ++ [e] := List.reverse_cons
      have left' : taken.accepted.reverse = taken.given ++ rest := by
        rw [given, List.append_assoc]
        exact left
      unfold workThrough
      dsimp only
      split
      · have step := taken.delivered_step e
        generalize taken.delivered e = result at step ⊢
        cases step with
        | lost fatal => exact steady_lost (left' ▸ List.prefix_append _ _)
        | reported panics => exact ih left'
        | handled calm => exact ih left'
      · refine steady_of_queued left' ?_ fun _ waits => nomatch waits
        intro other mem
        rw [List.mem_singleton.mp mem]
        show e ∈ taken.given
        rw [given]
        exact List.mem_append_right _ (List.mem_singleton_self e)

/-- A turn of the worker keeps the order. -/
theorem Steady.work (h : l.Steady) (now : Instant) : (l.work now).1.Steady := by
  cases worker : l.worker with
  | gone =>
      rw [Lane.work, worker]
      exact h
  | waiting =>
      rw [Lane.work, worker]
      exact steady_workThrough now (h.queued (by rw [isGone, worker]; rfl))
  | handling e due =>
      have queued := h.queued (by rw [isGone, worker]; rfl)
      rw [Lane.work, worker]
      dsimp only
      split
      · have step := l.delivered_step e
        generalize l.delivered e = result at step ⊢
        cases step with
        | lost fatal => exact steady_lost h.order
        | reported panics => exact steady_workThrough now queued
        | handled calm => exact steady_workThrough now queued
      · exact h

/-- A lane that takes an event has it last. -/
theorem accepted_offer {e : Event} (silent : l.offerReport? e = none)
    (kind : e.kind ≠ .subscriberOverflow) :
    (l.offer e).accepted = e :: l.accepted ∧ (l.offer e).queue ≠ [] := by
  rw [offerReport?, if_neg kind, Option.map_eq_none_iff] at silent
  rw [offer_of_room silent]
  exact ⟨rfl, List.append_ne_nil_of_right_ne_nil _ (List.cons_ne_nil _ _)⟩

theorem offer_of_isGone (gone : l.isGone = true) (e : Event) : l.offer e = l := by
  have refused : l.refusal? = some .closed := by rw [refusal?, if_pos gone]
  exact offer_of_refused refused

@[simp] theorem offer_isOpen (l : Lane) (e : Event) : (l.offer e).isOpen = l.isOpen := by
  unfold offer
  split <;> rfl

@[simp] theorem offer_handled (l : Lane) (e : Event) : (l.offer e).handled = l.handled := by
  unfold offer
  split <;> rfl

end Lane

end TaskEngine
