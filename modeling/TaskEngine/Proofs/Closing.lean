/-
  TaskEngine/Proofs/Closing.lean
  ==============================
  **Closed means closed.**

  The gate of an engine is shut in two ways: by its phase, once it is stopping, and by its run token,
  which callers may cancel at any moment, long before the watcher moves the phase.  Either way it
  stays shut, and nothing passes it any more: every request is answered with `closed`, whoever asks;
  no task is registered; no run begins, not even one that is owed; and nothing of that is announced.

  The request to stop is announced when the phase has moved, so it comes after everything that
  passed the gate (`Closes`).
-/
import TaskEngine.Proofs.Capacity
import TaskEngine.Proofs.Places
import TaskEngine.Proofs.Publishing
import TaskEngine.Proofs.Stopping

namespace TaskEngine

/-- How the note says that a request was answered. -/
def Note.answer? : Note → Option AdmissionResult
  | .requested _ _ result => some result
  | _ => none

theorem Note.answer?_of_isRemark {n : Note} (h : n.isRemark = true) : n.answer? = none := by
  cases n <;> first | rfl | cases h

namespace Engine

variable {e e' : Engine}

/-! ## 1. The gate -/

/-- The gate is shut: the engine is stopping or has stopped, or it is running and its run token is
cancelled. -/
def isShut (e : Engine) : Bool :=
  e.isClosing || (e.phase == .running && e.isCancelled e.runToken)

/-- The gate is shut exactly when it turns requests away as closed. -/
theorem isShut_iff (e : Engine) : e.isShut = true ↔ e.refusal? = some .closed := by
  unfold isShut isClosing refusal?
  cases e.phase with
  | notStarted => simp
  | running => cases e.isCancelled e.runToken <;> simp
  | stopping => simp
  | stopped => simp

theorem isShut_of_isClosing (closing : e.isClosing = true) : e.isShut = true := by
  rw [isShut, closing, Bool.true_or]

/-- Once the engine has begun, a gate that is not open is shut. -/
theorem isShut_of_begun (begun : e.phase ≠ .notStarted) (closing : e.isOpen = false) :
    e.isShut = true := by
  cases phase : e.phase with
  | notStarted => exact absurd phase begun
  | running => simpa [isShut, isClosing, isOpen, refusal?, phase] using closing
  | stopping => exact isShut_of_isClosing (by simp [isClosing, phase])
  | stopped => exact isShut_of_isClosing (by simp [isClosing, phase])

theorem isShut_congr (phase : e'.phase = e.phase) (runToken : e'.runToken = e.runToken)
    (cancellation : e'.cancellation = e.cancellation) : e'.isShut = e.isShut := by
  simp only [isShut, isClosing, isCancelled, phase, runToken, cancellation]

theorem Aside.isShut (h : Aside e e') : e'.isShut = e.isShut :=
  isShut_congr h.phase h.runToken h.cancellation

theorem request_of_isShut (shut : e.isShut = true) (t : TaskId) (waiter : Option WaiterId) :
    e.request t waiter = (e.note (.requested t waiter (.error .closed)), .error .closed) := by
  simp only [request, consider, (isShut_iff e).mp shut]

theorem initialStatus?_of_isShut (shut : e.isShut = true) : e.initialStatus? = none := by
  have closed := (isShut_iff e).mp shut
  unfold initialStatus?
  split
  · rename_i fresh
    simp [refusal?, fresh] at closed
  · simp [isOpen, closed]
  · rfl
  · rfl

theorem add_of_isShut (shut : e.isShut = true) (spec : Spec) :
    ∃ err, e.add spec = (e, .error err) := by
  unfold add
  split
  · exact ⟨_, rfl⟩
  · rw [initialStatus?_of_isShut shut]
    exact ⟨.closed, rfl⟩

/-! ## 2. Behind a shut gate -/

/-- How requests were answered so far, the newest answer first. -/
def answers (e : Engine) : List AdmissionResult := e.journal.filterMap (·.note.answer?)

/-- What happens behind a gate that is shut: it stays shut, no run begins and no task is registered,
requests are turned away as closed, and nothing is announced that passes the gate. -/
structure Sealed (e e' : Engine) : Prop where
  shut : e'.isShut = true
  counts : e'.tasks.map (·.runCount) = e.tasks.map (·.runCount)
  runs : (e'.runs.map (·.berth)).Sublist (e.runs.map (·.berth))
  answers : ∃ new, e'.answers = new ++ e.answers ∧ ∀ answer ∈ new, answer = .error .closed
  events : Publishes (fun k => k.passesGate = false) e e'

theorem sealed_of_same (shut : e'.isShut = true)
    (counts : e'.tasks.map (·.runCount) = e.tasks.map (·.runCount))
    (runs : (e'.runs.map (·.berth)).Sublist (e.runs.map (·.berth))) (answers : e'.answers = e.answers)
    (published : e'.published = e.published) : Sealed e e' :=
  ⟨shut, counts, runs, ⟨[], answers, fun _ mem => absurd mem List.not_mem_nil⟩,
    publishes_nothing published⟩

theorem Sealed.refl (shut : e.isShut = true) : Sealed e e :=
  sealed_of_same shut rfl (.refl _) rfl rfl

theorem Sealed.trans {e'' : Engine} (first : Sealed e e') (second : Sealed e' e'') :
    Sealed e e'' := by
  obtain ⟨older, asked, closed⟩ := first.answers
  obtain ⟨newer, asked', closed'⟩ := second.answers
  refine ⟨second.shut, second.counts.trans first.counts, second.runs.trans first.runs,
    ⟨newer ++ older, by rw [asked', asked, List.append_assoc], ?_⟩,
    first.events.trans second.events⟩
  intro answer mem
  rcases List.mem_append.mp mem with mem | mem
  · exact closed' answer mem
  · exact closed answer mem

theorem Sealed.ids (h : Sealed e e') : (e'.runs.map (·.id)).Sublist (e.runs.map (·.id)) := by
  simpa [Run.berth, Function.comp_def] using h.runs.map Prod.fst

theorem Alike.sealed (h : Alike e e') (shut : e'.isShut = true)
    (events : Publishes (fun k => k.passesGate = false) e e') : Sealed e e' := by
  have silent : e'.answers = e.answers :=
    filterMap_of_notes (h.notes.mono fun _ => Note.answer?_of_isRemark)
  exact ⟨shut, map_eq_of_forall₂ h.tasks fun _ _ alike => alike.runCount, h.runs ▸ .refl _,
    ⟨[], silent, fun _ mem => absurd mem List.not_mem_nil⟩, events⟩

/-! ### Calm changes -/

/-- A cancelled token stays cancelled, and an engine that is stopping does not start. -/
theorem Calm.isShut (calm : Calm e e') (shut : e.isShut = true) : e'.isShut = true := by
  cases calm with
  | clock now later => exact shut
  | note n remark own silent => exact shut
  | announce event task due => exact shut
  | announceEnd stopped => exact shut
  | beginFlush s stopped => exact (aside_beginFlush e s).isShut.trans shut
  | receive => exact (aside_receive e).isShut.trans shut
  | work i => exact (aside_workLane e i).isShut.trans shut
  | cancel t =>
      rcases Bool.or_eq_true_iff.mp shut with closing | open'
      · exact isShut_of_isClosing closing
      · obtain ⟨running, cancelled⟩ := Bool.and_eq_true_iff.mp open'
        refine Bool.or_eq_true_iff.mpr (.inr (Bool.and_eq_true_iff.mpr ⟨running, ?_⟩))
        show (e.cancellation.cancel t).isCancelled e.runToken = true
        rw [Cancellation.isCancelled_cancel]
        exact Bool.or_eq_true_iff.mpr (.inr cancelled)
  | start token fresh => simp [Engine.isShut, isClosing, fresh] at shut
  | unwatch due => exact shut
  | beginStopping running => rfl
  | setLoop t f keeps => exact shut
  | endLoop t cancelled => exact shut
  | setProgress id progress => exact shut

/-- What a calm change publishes has not passed the gate, and asks the engine to stop only when it
is stopping. -/
theorem Calm.publishes (calm : Calm e e') :
    Publishes (fun k => k.passesGate = false ∧ (k = .shutdownRequested → e.phase = .stopping))
      e e' := by
  have report (k : EventKind) (h : k.isReport = true) :
      k.passesGate = false ∧ (k = .shutdownRequested → e.phase = .stopping) := by
    rcases EventKind.eq_of_isReport h with rfl | rfl <;> exact ⟨rfl, nofun⟩
  cases calm with
  | note n remark own silent => exact publishes_nothing (published_of_note e silent)
  | announce event task due =>
      refine publishes_announce e event task ⟨not_passesGate_of_announces due, fun asked => ?_⟩
      rw [asked] at due
      exact beq_iff_eq.mp due
  | announceEnd stopped => exact publishes_announce e _ none ⟨rfl, nofun⟩
  | beginFlush s stopped => exact (reports_beginFlush e s).mono report
  | receive => exact (reports_receive e).mono report
  | work i => exact (reports_workLane e i).mono report
  | start token fresh =>
      refine publishes_nothing ?_
      unfold entered startPump
      split <;> rfl
  | _ => exact publishes_nothing rfl

/-! ### All changes -/

theorem sealed_conclude {run : Run} {task : TaskRecord} (shut : e.isShut = true)
    (known : e.tasks[run.id.task]? = some task) (outcome : Outcome) :
    Sealed e (e.conclude run task outcome) := by
  have counts : (e.tasks.set run.id.task (task.conclude e.phase e.now outcome)).map (·.runCount) =
      e.tasks.map (·.runCount) := map_set_eq_map known (TaskRecord.conclude_runCount ..)
  exact sealed_of_same shut counts (List.filter_sublist.map _) rfl rfl

/-- A run that ends behind a shut gate is followed by none, even if one is owed. -/
theorem sealed_finish (shut : e.isShut = true) (id : RunId) (outcome : Outcome) :
    Sealed e (e.finish id outcome) := by
  have step := e.finish_step id outcome
  generalize e.finish id outcome = after at step ⊢
  cases step with
  | unknown => exact .refl shut
  | last run task found known settled => exact sealed_conclude shut known outcome
  | closed run task found known owed closing =>
      have concluded := sealed_conclude shut known outcome
      exact concluded.trans (sealed_of_same concluded.shut rfl (.refl _) rfl rfl)
  | again run task found known owed admits =>
      rw [isOpen, (isShut_iff e).mp shut] at admits
      cases admits

theorem sealed_request (shut : e.isShut = true) (t : TaskId) (waiter : Option WaiterId) :
    Sealed e (e.request t waiter).1 := by
  rw [request_of_isShut shut]
  refine ⟨shut, rfl, .refl _, ⟨[.error .closed], rfl, ?_⟩, publishes_nothing rfl⟩
  intro answer mem
  exact List.mem_singleton.mp mem

theorem Change.sealed {l : Licence} (change : Change l e e') (shut : e.isShut = true) :
    Sealed e e' := by
  cases change with
  | calm calm => exact calm.alike.sealed (calm.isShut shut) (calm.publishes.mono fun _ kind => kind.1)
  | register spec status accepted room =>
      rw [initialStatus?_of_isShut shut] at accepted
      cases accepted
  | stop idle covers =>
      refine sealed_of_same rfl ?_ (.refl _) rfl rfl
      show ((e.tasks.map TaskRecord.forget).map TaskRecord.finalize).map (·.runCount) = _
      simp [TaskRecord.forget, TaskRecord.finalize, Function.comp_def]
  | drain closing covers =>
      refine sealed_of_same shut ?_ (.refl _) rfl rfl
      show (e.tasks.map TaskRecord.forget).map (·.runCount) = _
      simp [TaskRecord.forget, Function.comp_def]
  | request t => exact sealed_request shut t none
  | requestWaiting t covers =>
      have drawn : Sealed e (e.drawSerial t) :=
        (alike_drawSerial e t).sealed shut (publishes_nothing rfl)
      exact drawn.trans (sealed_request drawn.shut t _)
  | detach w leaves =>
      refine sealed_of_same shut ?_ (.refl _) rfl rfl
      have same := forall₂_modify (R := fun old new : TaskRecord => new.runCount = old.runCount)
        (f := (·.detach w)) (fun _ => rfl) (fun _ => rfl) e.tasks w.task
      exact map_eq_of_forall₂ same fun _ _ same => same
  | finish id outcome covers => exact sealed_finish shut id outcome
  | abandon id refuses covers =>
      unfold Engine.abandon
      split
      · exact sealed_of_same shut rfl (List.filter_sublist.map _) rfl rfl
      · exact .refl shut

/-- A gate that is shut stays shut, and nothing passes it. -/
theorem sealed_after {moves : List Move} (admitted : e.admits moves = true)
    (shut : e.isShut = true) : Sealed e (e.after moves) :=
  keeps_after (P := Sealed e) (fun _ _ _ change h => h.trans (change.sealed h.shut)) admitted
    (.refl shut)

/-! ## 3. The order of announcements -/

/-- A request to stop is announced behind a shut gate, after everything that passed it. -/
structure Closes (e : Engine) : Prop where
  asked : (∃ event ∈ e.published, event.kind = .shutdownRequested) → e.isShut = true
  order : Precedes (·.passesGate = true) .shutdownRequested e

theorem closes_create (config : Config) (subscribers : List Subscriber) :
    (create config subscribers).Closes :=
  ⟨fun ⟨_, mem, _⟩ => absurd mem List.not_mem_nil, precedes_create ..⟩

theorem publishes_request (e : Engine) (t : TaskId) (waiter : Option WaiterId) :
    Publishes (fun k => k = .runSkipped ∨ k = .runMerged) e (e.request t waiter).1 := by
  have announced (e : Engine) (event : Event)
      (which : event.kind = .runSkipped ∨ event.kind = .runMerged) :
      Publishes (fun k => k = .runSkipped ∨ k = .runMerged) e (e.publishAbout t event) :=
    publishes_announce e event (some t) which
  have step := e.request_step t waiter
  generalize e.request t waiter = answer at step ⊢
  cases step with
  | refused err => exact publishes_nothing rfl
  | skipped task known full =>
      exact (announced e _ (.inl rfl)).trans (publishes_nothing rfl)
  | merged task known admits willing full overlap =>
      exact (announced (e.updateTask t (·.fold waiter)) _ (.inr rfl)).trans (publishes_nothing rfl)
  | started task known admits willing room =>
      rw [beginRun_eq known]
      exact publishes_nothing rfl

/-- What a change publishes passes the gate only while it is not shut, and asks the engine to stop
only when it is stopping. -/
theorem Change.publishes {l : Licence} (change : Change l e e') :
    Publishes (fun k => (k.passesGate = true → e.isShut = false) ∧
      (k = .shutdownRequested → e.phase = .stopping)) e e' := by
  have asks {t : TaskId} {waiter : Option WaiterId} (e : Engine) :
      Publishes (fun k => (k.passesGate = true → e.isShut = false) ∧
        (k = .shutdownRequested → e.phase = .stopping)) e (e.request t waiter).1 := by
    cases shut : e.isShut with
    | true =>
        rw [request_of_isShut shut]
        exact publishes_nothing rfl
    | false =>
        refine (publishes_request e t waiter).mono fun k which => ⟨fun _ => rfl, ?_⟩
        rcases which with rfl | rfl <;> exact nofun
  cases change with
  | calm calm =>
      refine calm.publishes.mono fun k kind => ⟨fun passes => ?_, kind.2⟩
      rw [kind.1] at passes
      cases passes
  | register spec status accepted room =>
      have unshut : e.isShut = false := by
        cases shut : e.isShut with
        | false => rfl
        | true =>
            rw [initialStatus?_of_isShut shut] at accepted
            cases accepted
      obtain ⟨events, published, kinds⟩ := publishes_announce (p := (· = .taskAdded)) e
        { kind := .taskAdded, task := some spec.name, reason := some spec.schedule.label } none rfl
      refine ⟨events, published, fun event mem => ⟨fun _ => unshut, ?_⟩⟩
      rw [kinds event mem]
      rintro ⟨⟩
  | stop idle covers => exact publishes_nothing rfl
  | drain closing covers => exact publishes_nothing rfl
  | request t => exact asks e
  | requestWaiting t covers => exact asks (e.drawSerial t)
  | detach w leaves => exact publishes_nothing rfl
  | finish id outcome covers =>
      exact (published_finish e id outcome).publishes fun _ mem => absurd mem List.not_mem_nil
  | abandon id refuses covers =>
      unfold Engine.abandon
      split <;> exact publishes_nothing rfl

theorem Closes.change {l : Licence} (change : Change l e e') (h : e.Closes) : e'.Closes := by
  have stays (shut : e.isShut = true) : e'.isShut = true := (change.sealed shut).shut
  have stopping (phase : e.phase = .stopping) : e.isShut = true :=
    isShut_of_isClosing (by simp [isClosing, phase])
  constructor
  · rintro ⟨event, mem, asks⟩
    rcases change.publishes.kind_of_mem mem with mem | kind
    · exact stays (h.asked ⟨event, mem, asks⟩)
    · exact stays (stopping (kind.2 asks))
  · apply h.order.publishes change.publishes
    intro asked k kind passes
    have shut : e.isShut = true := by
      rcases asked with asks | asked
      · exact stopping (asks.2 rfl)
      · exact h.asked asked
    rw [kind.1 passes] at shut
    cases shut

/-! ## 4. All histories -/

/-- **Closed means closed.**  Once the gate is shut, be it by the phase or by the run token, then
whatever happens and in whatever order: it stays shut; every request for a run is turned away as
closed, whether it is made now or was made in between by callers or schedules; no task is
registered; no task counts another run, and no run is in flight that was not; no event that passes
the gate is published, and all that ever were came before the engine was asked to stop. -/
theorem nothing_passes_a_shut_gate (config : Config) (subscribers : List Subscriber)
    (before later : List Move)
    (admitted : (create config subscribers).admits (before ++ later) = true)
    (shut : ((create config subscribers).after before).isShut = true) :
    let e := (create config subscribers).after before
    let e' := (create config subscribers).after (before ++ later)
    e'.isShut = true ∧
    (∀ t waiter, (e'.request t waiter).2 = .error .closed) ∧
    (∀ t, (e'.requestWaiting t).2.2 = .error .closed) ∧
    (∀ name t, e'.lookup? name = some t → (e'.trigger name).2 = .error .closed) ∧
    (∃ new, e'.answers = new ++ e.answers ∧ ∀ answer ∈ new, answer = .error .closed) ∧
    (∀ spec, ∃ err, e'.add spec = (e', .error err)) ∧
    e'.tasks.map (·.runCount) = e.tasks.map (·.runCount) ∧
    (e'.runs.map (·.id)).Sublist (e.runs.map (·.id)) ∧
    (∃ events, e'.published = e.published ++ events ∧
      ∀ event ∈ events, event.kind.passesGate = false) ∧
    e'.published.Pairwise fun first later =>
      first.kind = .shutdownRequested → later.kind.passesGate = false := by
  intro e e'
  obtain ⟨-, rest⟩ := (admits_append ..).mp admitted
  have closed : Sealed e e' := by
    have behind := sealed_after rest shut
    rwa [← after_append] at behind
  have order : e'.Closes :=
    keeps_after (fun _ _ _ => Closes.change) admitted (closes_create config subscribers)
  have refused (t : TaskId) (waiter : Option WaiterId) : (e'.request t waiter).2 = .error .closed := by
    rw [request_of_isShut closed.shut]
  refine ⟨closed.shut, refused, ?_, ?_, closed.answers, add_of_isShut closed.shut, closed.counts,
    closed.ids, closed.events, ?_⟩
  · intro t
    have drawn : (e'.drawSerial t).isShut = true := closed.shut
    show ((e'.drawSerial t).request t _).2 = _
    rw [request_of_isShut drawn]
  · intro name t found
    rw [trigger, found]
    exact refused t none
  · exact order.order.imp fun before asked => Bool.eq_false_iff.mpr (before asked)

/-- The token given to the start is cancelled while a run is owed; the run in flight ends, and the
engine has counted no other. -/
theorem nothing_passes_a_shut_gate_owing :
    (create {} []).admits ((foldedHistory ++ [.cancel (.named "t")]) ++ [.finish ⟨0, 1⟩ .succeeded]) =
      true ∧
    ((create {} []).after (foldedHistory ++ [.cancel (.named "t")])).isShut = true ∧
    ((create {} []).after ((foldedHistory ++ [.cancel (.named "t")]) ++
      [.finish ⟨0, 1⟩ .succeeded])).tasks.map (·.runCount) = [1] := by
  have admitted : (create {} []).admits
      ((foldedHistory ++ [.cancel (.named "t")]) ++ [.finish ⟨0, 1⟩ .succeeded]) = true := by decide
  have shut : ((create {} []).after (foldedHistory ++ [.cancel (.named "t")])).isShut = true := by
    decide
  obtain ⟨-, -, -, -, -, -, counts, -⟩ :=
    nothing_passes_a_shut_gate {} [] _ [.finish ⟨0, 1⟩ .succeeded] admitted shut
  exact ⟨admitted, shut, counts⟩

end Engine

end TaskEngine
