/-
  TaskEngine/Proofs/Publishing.lean
  =================================
  **What is published, and in which order.**

  The journal keeps the events that were published, in order.  What a step adds to them is described
  by the kinds that it may add (`Engine.Publishes`); passing events on and having them handled adds
  reports about subscribers only.

  An order of kinds is kept by every step that adds nothing of the earlier ones once an event of the
  later kind is there (`Engine.Precedes`).
-/
import TaskEngine.Proofs.Feeding

namespace TaskEngine

/-- Whether events of this kind are reports about subscribers. -/
def EventKind.isReport : EventKind → Bool
  | .subscriberPanicked | .subscriberOverflow => true
  | _ => false

theorem EventKind.eq_of_isReport {k : EventKind} (h : k.isReport = true) :
    k = .subscriberPanicked ∨ k = .subscriberOverflow := by
  cases k <;> simp [isReport] at h ⊢

namespace Engine

variable {e e' : Engine} {p q : EventKind → Prop}

/-! ## 1. Steps that publish events of some kinds -/

/-- Events of such kinds were published in between, if any. -/
def Publishes (p : EventKind → Prop) (e e' : Engine) : Prop :=
  ∃ events, e'.published = e.published ++ events ∧ ∀ event ∈ events, p event.kind

theorem publishes_nothing (same : e'.published = e.published) : Publishes p e e' :=
  ⟨[], by rw [same, List.append_nil], fun _ mem => absurd mem List.not_mem_nil⟩

theorem Published.publishes {events : List Event} (h : Published e e' events)
    (kinds : ∀ event ∈ events, p event.kind) : Publishes p e e' :=
  ⟨events, h.published, kinds⟩

theorem publishes_announce (e : Engine) (event : Event) (task : Option TaskId) (kind : p event.kind) :
    Publishes p e (e.announce event task) := by
  refine ⟨[event], published_of_announce e event task, ?_⟩
  intro other mem
  rw [List.mem_singleton.mp mem]
  exact kind

theorem Publishes.mono (h : Publishes p e e') (wider : ∀ k, p k → q k) : Publishes q e e' := by
  obtain ⟨events, published, kinds⟩ := h
  exact ⟨events, published, fun event mem => wider _ (kinds event mem)⟩

theorem Publishes.trans {e'' : Engine} (first : Publishes p e e') (second : Publishes p e' e'') :
    Publishes p e e'' := by
  obtain ⟨older, published, kinds⟩ := first
  obtain ⟨newer, published', kinds'⟩ := second
  refine ⟨older ++ newer, by rw [published', published, List.append_assoc], ?_⟩
  intro event mem
  rcases List.mem_append.mp mem with mem | mem
  · exact kinds event mem
  · exact kinds' event mem

/-- What was not there before is of such a kind. -/
theorem Publishes.kind_of_mem (h : Publishes p e e') {event : Event} (mem : event ∈ e'.published) :
    event ∈ e.published ∨ p event.kind := by
  obtain ⟨events, published, kinds⟩ := h
  rw [published] at mem
  exact (List.mem_append.mp mem).imp_right (kinds event)

/-! ## 2. Feeding the lanes -/

theorem published_publishAll (e : Engine) (events : List Event) :
    (e.publishAll events).published = e.published ++ events := by
  induction events generalizing e with
  | nil => exact (List.append_nil _).symm
  | cons event events ih =>
      show ((e.publish event).publishAll events).published = _
      rw [ih, publish, published_of_announce, List.append_assoc, List.singleton_append]

theorem published_emit (e : Engine) (event : Event) :
    (e.emit event).published = e.published ++ (emitTo e.lanes event).2 :=
  published_publishAll ..

theorem published_workLane (e : Engine) (i : Nat) :
    (e.workLane i).published = e.published ++ (TaskEngine.workLane e.now e.lanes i).2 :=
  published_publishAll ..

theorem reports_emit (e : Engine) (event : Event) :
    Publishes (·.isReport = true) e (e.emit event) := by
  refine ⟨_, published_emit e event, ?_⟩
  intro report mem
  rw [kind_of_mem_emitTo mem]
  rfl

theorem kind_of_mem_workLane {now : Instant} {lanes : List Lane} {i : Nat} {report : Event}
    (mem : report ∈ (TaskEngine.workLane now lanes i).2) : report.kind = .subscriberPanicked := by
  unfold TaskEngine.workLane at mem
  cases found : lanes[i]? with
  | none =>
      rw [found] at mem
      cases mem
  | some l =>
      rw [found] at mem
      exact ((Lane.worked_work now l).reports report mem).1

theorem reports_workLane (e : Engine) (i : Nat) :
    Publishes (·.isReport = true) e (e.workLane i) := by
  refine ⟨_, published_workLane e i, ?_⟩
  intro report mem
  rw [kind_of_mem_workLane mem]
  rfl

theorem published_awaitWorkers (e : Engine) : e.awaitWorkers.published = e.published := by
  unfold awaitWorkers
  split <;> rfl

theorem reports_receive (e : Engine) : Publishes (·.isReport = true) e e.receive := by
  have step := e.receive_step
  generalize e.receive = after at step ⊢
  cases step with
  | nothing idle => exact publishes_nothing rfl
  | passes event cursor receiving next goesOn => exact reports_emit { e with cursor } event
  | ends event cursor receiving next last =>
      exact (reports_emit { e with cursor } event).trans
        (publishes_nothing (published_awaitWorkers _))
  | awaits closing => exact publishes_nothing (published_awaitWorkers e)

theorem reports_beginFlush (e : Engine) (s : Shutdown) :
    Publishes (·.isReport = true) e (e.beginFlush s).1 := by
  unfold beginFlush
  split
  · exact publishes_nothing rfl
  · exact publishes_nothing rfl
  · refine forward_keeps (P := Publishes (·.isReport = true) e) ?_ false _ (publishes_nothing rfl)
    intro e' event cursor _ reports
    exact reports.trans (reports_emit { e' with cursor } event)

/-! ## 3. Orders of kinds -/

/-- Whatever was published of the kinds `q` was published before any event of kind `k`. -/
def Precedes (q : EventKind → Prop) (k : EventKind) (e : Engine) : Prop :=
  e.published.Pairwise fun first later => first.kind = k → ¬q later.kind

theorem precedes_create (config : Config) (subscribers : List Subscriber) (q : EventKind → Prop)
    (k : EventKind) : Precedes q k (create config subscribers) :=
  .nil

theorem precedes_of_absent {k : EventKind} (absent : ∀ event ∈ e.published, event.kind ≠ k) :
    Precedes q k e :=
  List.pairwise_of_forall_mem_list fun first mem _ _ same => absurd same (absent first mem)

/-- Nothing of the earlier kinds is added once the later one is there, or along with it. -/
theorem Precedes.publishes {k : EventKind} (h : Precedes q k e) (new : Publishes p e e')
    (apart : p k ∨ (∃ event ∈ e.published, event.kind = k) → ∀ kind, p kind → ¬q kind) :
    Precedes q k e' := by
  obtain ⟨events, published, kinds⟩ := new
  rw [Precedes, published, List.pairwise_append]
  refine ⟨h, ?_, ?_⟩
  · refine List.pairwise_of_forall_mem_list fun first mem later mem' same => ?_
    exact apart (.inl (same ▸ kinds first mem)) _ (kinds later mem')
  · intro first mem later mem' same
    exact apart (.inr ⟨first, mem, same⟩) _ (kinds later mem')

end Engine

end TaskEngine
