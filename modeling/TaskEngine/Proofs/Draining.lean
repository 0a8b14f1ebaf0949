/-
  TaskEngine/Proofs/Draining.lean
  ===============================
  **What the success of a shutdown says about the lanes.**

  Once an engine has stopped, its lanes are due what was published until then (`Engine.Dues`).  The
  shutdown that takes over the way to the lanes waits until they have dealt with all of it.  A
  shutdown that overlaps with it finds the way taken, or the engine stopped, and returns at once: it
  succeeds however far the lanes have got.  As long as no event is lost, the lanes are drained exactly
  if they are closed and their workers have ended (`Dues.drained_iff`).
-/
import TaskEngine.Proofs.Polls
import TaskEngine.Proofs.Stillness
import TaskEngine.Proofs.Tracking

namespace TaskEngine

/-- Every subscriber was given what was due, in order, and has dealt with all of it. -/
def Drained (due : List Event) (lanes : List Lane) : Prop :=
  ∀ l ∈ lanes, l.given = due ∧ l.inHand = []

namespace Engine

variable {e e' : Engine} {due : List Event}

/-! ## 1. Who feeds the lanes -/

/-- An engine with subscribers gets its pump when it is started. -/
structure Staffed (e : Engine) : Prop where
  fresh : e.phase = .notStarted → e.pump = .absent ∧ (e.subscribers ≠ [] → e.dispatch = .buffered)
  started : e.phase = .running ∨ e.phase = .stopping →
    e.dispatch ≠ .buffered ∧ (e.subscribers ≠ [] → e.pump ≠ .absent)
  pumping : e.dispatch = .pumping → e.pump ≠ .absent

theorem staffed_create (config : Config) (subs : List Subscriber) :
    (create config subs).Staffed := by
  refine ⟨fun _ => ⟨rfl, fun some => ?_⟩, ?_, ?_⟩
  · rw [subscribers_create] at some
    cases subs with
    | nil => exact absurd rfl some
    | cons s rest => rfl
  · rintro (running | stopping)
    · cases running
    · cases stopping
  · intro pumping
    cases subs with
    | nil => cases pumping
    | cons s rest => cases pumping

theorem staffed_of_stopped (stopped : e.phase = .stopped)
    (pumping : e.dispatch = .pumping → e.pump ≠ .absent) : e.Staffed := by
  refine ⟨fun fresh => ?_, fun started => ?_, pumping⟩
  · cases stopped.symm.trans fresh
  · exact absurd stopped (ne_of_started started).2

theorem Staffed.congr (h : e.Staffed) (phase : e'.phase = e.phase)
    (subscribers : e'.subscribers = e.subscribers) (dispatch : e'.dispatch = e.dispatch)
    (pump : e'.pump = .absent ↔ e.pump = .absent) : e'.Staffed := by
  have there : e'.pump ≠ .absent ↔ e.pump ≠ .absent := not_congr pump
  constructor
  · rw [phase, subscribers, dispatch, pump]
    exact h.fresh
  · rw [phase, subscribers, dispatch, there]
    exact h.started
  · rw [dispatch, there]
    exact h.pumping

theorem absent_receive (e : Engine) : e.receive.pump = .absent ↔ e.pump = .absent := by
  have waits (e : Engine) : e.awaitWorkers.pump ≠ .absent := by
    unfold awaitWorkers
    split <;> exact (fun absent => nomatch absent)
  have step := e.receive_step
  generalize e.receive = after at step ⊢
  cases step with
  | nothing idle => exact Iff.rfl
  | passes event cursor receiving next goesOn => rw [(passed_emit next).pump]
  | ends event cursor receiving next last => simp [waits, receiving]
  | awaits closing => simp [waits, closing]

theorem absent_beginFlush (paced : e.Paced) (s : Shutdown) :
    (e.beginFlush s).1.pump = .absent ↔ e.pump = .absent := by
  unfold beginFlush
  split
  · exact Iff.rfl
  · exact Iff.rfl
  · rename_i buffered
    have absent := (paced.fresh buffered).1
    exact ⟨fun _ => absent, fun _ => (pump_forwardAll { e with dispatch := .idle }).trans absent⟩

theorem Staffed.feeds (h : e.Staffed) (feeds : Feeds e e') : e'.Staffed := by
  have subscribers := feeds.subscribers
  cases feeds with
  | publishes published phase =>
      have pump : e'.pump = .absent ↔ e.pump = .absent := by rw [published.pump]
      rcases phase with phase | ⟨running, stopping⟩ | stopped
      · exact h.congr phase subscribers published.dispatch pump
      · refine ⟨fun fresh => ?_, fun _ => ?_, ?_⟩
        · cases stopping.symm.trans fresh
        · rw [published.dispatch, published.pump, subscribers]
          exact h.started (.inl running)
        · rw [published.dispatch, published.pump]
          exact h.pumping
      · apply staffed_of_stopped stopped
        rw [published.dispatch, published.pump]
        exact h.pumping
  | start token fresh =>
      obtain ⟨absent, waits⟩ := h.fresh fresh
      unfold entered startPump
      split
      · refine ⟨(fun fresh => nomatch fresh), fun _ => ⟨?_, fun _ => ?_⟩, fun _ => ?_⟩
        · exact (fun buffered => nomatch buffered)
        · exact (fun absent => nomatch absent)
        · exact (fun absent => nomatch absent)
      · rename_i idle
        have idle' : e.dispatch = .idle := idle
        refine ⟨(fun fresh => nomatch fresh), fun _ => ⟨?_, fun some => ?_⟩, fun pumping => ?_⟩
        · intro buffered
          cases idle'.symm.trans buffered
        · cases idle'.symm.trans (waits some)
        · cases idle'.symm.trans pumping
      · rename_i pumping
        exact absurd absent (h.pumping pumping)
  | announceEnd stopped => exact staffed_of_stopped stopped h.pumping
  | beginFlush s stopped =>
      apply staffed_of_stopped ((aside_beginFlush e s).phase.trans stopped)
      intro pumping
      cases (dispatch_beginFlush e s).symm.trans pumping
  | receive => exact h.congr e.phase_receive subscribers e.dispatch_receive e.absent_receive
  | work i =>
      refine h.congr (aside_workLane e i).phase subscribers (by rw [workLane_eq]) ?_
      rw [pump_workLane]

/-! ## 2. What is due -/

/-- What was published until the engine had stopped. -/
def publishedAtStop (e : Engine) : List Move → List Event
  | [] => e.published
  | m :: moves => if e.phase = .stopped then e.published else (e.perform m).publishedAtStop moves

theorem publishedAtStop_of_stopped (stopped : e.phase = .stopped) (moves : List Move) :
    e.publishedAtStop moves = e.published := by
  cases moves with
  | nil => rfl
  | cons m moves => rw [publishedAtStop, if_pos stopped]

theorem publishedAtStop_cons (going : e.phase ≠ .stopped) (m : Move) (moves : List Move) :
    e.publishedAtStop (m :: moves) = (e.perform m).publishedAtStop moves := by
  rw [publishedAtStop, if_neg going]

/-- The engine has stopped, and the lanes are due these events: the pump reads them up to the end
marker, or all of them were handed to the lanes without a pump. -/
structure Dues (due : List Event) (e : Engine) : Prop where
  stopped : e.phase = .stopped
  taken : e.dispatch = .idle
  before : due <+: e.published
  marked : e.pump ≠ .absent → EndsMarked due
  handed : e.pump = .absent → e.subscribers ≠ [] → e.forwarded.reverse = due

theorem Dues.congr (h : Dues due e) (phase : e'.phase = e.phase) (dispatch : e'.dispatch = e.dispatch)
    (published : e.published <+: e'.published) (pump : e'.pump = .absent ↔ e.pump = .absent)
    (subscribers : e'.subscribers = e.subscribers)
    (forwarded : e.pump = .absent → e'.forwarded = e.forwarded) : Dues due e' := by
  refine ⟨phase.trans h.stopped, dispatch.trans h.taken, h.before.trans published, ?_, ?_⟩
  · rw [ne_eq, pump]
    exact h.marked
  · rw [pump, subscribers]
    intro absent
    rw [forwarded absent]
    exact h.handed absent

theorem receive_of_absent (absent : e.pump = .absent) : e.receive = e := by
  rw [receive, absent]

theorem Publishes.before {p : EventKind → Prop} (h : Publishes p e e') :
    e.published <+: e'.published := by
  obtain ⟨events, published, -⟩ := h
  rw [published]
  exact List.prefix_append _ _

/-- What is due stays due. -/
theorem Dues.feeds (h : Dues due e) (feeds : Feeds e e') : Dues due e' := by
  have subscribers := feeds.subscribers
  have phase : e'.phase = e.phase := (feeds.phase.2 h.stopped).trans h.stopped.symm
  have published := feeds.marks.before
  cases feeds with
  | publishes events _ =>
      exact h.congr phase events.dispatch published (by rw [events.pump]) subscribers
        fun _ => events.forwarded
  | start token fresh => cases h.stopped.symm.trans fresh
  | announceEnd stopped => exact h.congr phase rfl published Iff.rfl subscribers fun _ => rfl
  | beginFlush s stopped =>
      have same : (e.beginFlush s).1 = e := by rw [beginFlush, h.taken]
      rw [same]
      exact h
  | receive =>
      refine h.congr phase e.dispatch_receive published e.absent_receive subscribers ?_
      intro absent
      rw [receive_of_absent absent]
  | work i =>
      refine h.congr phase (by rw [workLane_eq]) published ?_ subscribers ?_
      · rw [pump_workLane]
      · exact fun _ => forwarded_workLane e i

/-! ## 3. How it becomes due -/

/-- What is kept until the engine has stopped. -/
structure Ready (e : Engine) : Prop where
  traced : e.Traced
  staffed : e.Staffed
  unended : e.HasEnded → e.phase = .stopped

theorem ready_create (config : Config) (subs : List Subscriber) : (create config subs).Ready :=
  ⟨traced_create config subs, staffed_create config subs,
    fun ⟨_, mem, _⟩ => absurd mem List.not_mem_nil⟩

theorem Ready.feeds (h : e.Ready) (feeds : Feeds e e') : e'.Ready :=
  ⟨h.traced.feeds feeds, h.staffed.feeds feeds, feeds.hasEnded h.unended⟩

theorem ready_after {config : Config} {subs : List Subscriber} {moves : List Move}
    (admitted : (create config subs).admits moves = true) :
    ((create config subs).after moves).Ready :=
  feeds_after (fun _ _ h => Ready.feeds h) admitted (ready_create config subs)

theorem ready_finalize (ready : e.Ready) : { e with phase := .stopped }.finalize.Ready :=
  ready.feeds (.publishes (published_nothing rfl) (.inr (.inr rfl)))

/-- The end marker of the shutdown that stops the engine is its first. -/
theorem Stops.completed_of_ready (h : Stops e e') (ready : e.Ready)
    (started : e.phase = .running ∨ e.phase = .stopping) :
    EndsMarked e'.published ∧ e'.phase = .stopped ∧ e'.dispatch = .idle ∧ e'.pump = e.pump ∧
      e'.subscribers = e.subscribers := by
  obtain ⟨found, events, s, published, -, rfl⟩ := h
  have done : Completed found (found.complete s).1 := by
    apply completed s
    rw [published.dispatch]
    exact (ready.staffed.started started).1
  refine ⟨⟨found.published, _, done.published, rfl, ?_⟩, done.phase, done.dispatch,
    done.pump.trans published.pump, ?_⟩
  · rw [published.published]
    intro event mem marker
    rcases List.mem_append.mp mem with mem | mem
    · exact (ne_of_started started).2 (ready.unended ⟨event, mem, marker⟩)
    · exact published.kind_ne rfl event mem marker
  · rw [subscribers, subscribers, done.lanes, published.lanes]

theorem dues_of_stops (h : Stops e e') (ready : e.Ready)
    (started : e.phase = .running ∨ e.phase = .stopping) : Dues e'.published e' := by
  obtain ⟨marked, stopped, taken, pump, subscribers⟩ := h.completed_of_ready ready started
  refine ⟨stopped, taken, List.prefix_refl _, fun _ => marked, fun absent some => ?_⟩
  rw [subscribers] at some
  rw [pump] at absent
  exact absurd absent ((ready.staffed.started started).2 some)

/-- A shutdown of an engine that was never started hands over what was published before. -/
theorem dues_shutdown (ready : e.Ready) (fresh : e.phase = .notStarted) (bound : Bound)
    (grace : Duration) (lossless : (e.shutdown bound grace).1.Lossless) :
    Dues (e.shutdown bound grace).1.published (e.shutdown bound grace).1 := by
  let closed : Engine := { e with phase := .stopped }.finalize
  have traced : closed.Traced := (ready_finalize ready).traced
  have flushes : e.shutdown bound grace = closed.beginFlush { bound, grace } := by
    simp only [shutdown, fresh]
    rfl
  obtain ⟨absent, waits⟩ := ready.staffed.fresh fresh
  have pump := (absent_beginFlush traced.paced { bound, grace }).mpr absent
  rw [flushes] at lossless ⊢
  refine ⟨(aside_beginFlush closed _).phase, dispatch_beginFlush closed _, List.prefix_refl _,
    fun there => absurd pump there, fun _ some => ?_⟩
  rw [subscribers_beginFlush] at some
  have buffered : closed.dispatch = .buffered := waits some
  have tracked : closed.Tracked := traced.tracked (lossless.of_beginFlush traced.paced)
  simp only [beginFlush, buffered] at lossless ⊢
  exact (tracked.flush traced.paced buffered (unlost_of_closeLanes lossless.toUnlost)).2

theorem started_or_fresh (going : e.phase ≠ .stopped) :
    e.phase = .notStarted ∨ e.phase = .running ∨ e.phase = .stopping := by
  cases phase : e.phase with
  | notStarted => exact .inl rfl
  | running => exact .inr (.inl rfl)
  | stopping => exact .inr (.inr rfl)
  | stopped => exact absurd phase going

theorem dues_perform {m : Move} (ready : e.Ready) (going : e.phase ≠ .stopped)
    (allowed : e.allows m = true) (stopped : (e.perform m).phase = .stopped)
    (lossless : (e.perform m).Lossless) : Dues (e.perform m).published (e.perform m) := by
  rcases started_or_fresh going with fresh | started
  · obtain ⟨bound, grace, rfl⟩ := shutdown_of_stops fresh allowed stopped
    exact dues_shutdown ready fresh bound grace lossless
  · exact dues_of_stops (perform_stops started stopped) ready started

/-- **Whoever stops the engine, what was published until then is what the lanes are due.** -/
theorem dues_after {moves : List Move} (ready : e.Ready) (going : e.phase ≠ .stopped)
    (admitted : e.admits moves = true) (stopped : (e.after moves).phase = .stopped)
    (lossless : (e.after moves).Lossless) : Dues (e.publishedAtStop moves) (e.after moves) := by
  induction moves generalizing e with
  | nil => exact absurd stopped going
  | cons m moves ih =>
      obtain ⟨allowed, rest⟩ := (admits_cons ..).mp admitted
      have next : (e.perform m).Ready := feeds_perform (fun _ _ h => Ready.feeds h) allowed ready
      rw [publishedAtStop_cons going]
      by_cases now : (e.perform m).phase = .stopped
      · have before := lossless_of_after rest next.traced.paced lossless
        rw [publishedAtStop_of_stopped now, after_cons]
        exact feeds_after (P := Dues (e.perform m).published) (fun _ _ h => Dues.feeds h) rest
          (dues_perform ready going allowed now before)
      · exact ih next now rest stopped lossless

/-- What an engine is due that has been started ends with the end marker. -/
theorem endsMarked_publishedAtStop {moves : List Move} (ready : e.Ready)
    (started : e.phase = .running ∨ e.phase = .stopping) (admitted : e.admits moves = true)
    (stopped : (e.after moves).phase = .stopped) : EndsMarked (e.publishedAtStop moves) := by
  induction moves generalizing e with
  | nil => exact absurd stopped (ne_of_started started).2
  | cons m moves ih =>
      obtain ⟨allowed, rest⟩ := (admits_cons ..).mp admitted
      obtain ⟨begun, going⟩ := ne_of_started started
      rw [publishedAtStop_cons going]
      by_cases now : (e.perform m).phase = .stopped
      · rw [publishedAtStop_of_stopped now]
        exact ((perform_stops started now).completed_of_ready ready started).1
      · refine ih (feeds_perform (fun _ _ h => Ready.feeds h) allowed ready) ?_ rest stopped
        have begun' : (e.perform m).phase ≠ .notStarted :=
          feeds_perform (P := (·.phase ≠ .notStarted))
            (fun _ _ begun feeds fresh => begun (feeds.phase.1 fresh)) allowed begun
        exact (started_or_fresh now).resolve_left begun'

theorem publishedAtStop_append {before moves : List Move} (admitted : e.admits before = true)
    (going : (e.after before).phase ≠ .stopped) :
    e.publishedAtStop (before ++ moves) = (e.after before).publishedAtStop moves := by
  induction before generalizing e with
  | nil => rfl
  | cons m before ih =>
      obtain ⟨allowed, rest⟩ := (admits_cons ..).mp admitted
      have now : e.phase ≠ .stopped := by
        intro stopped
        exact going (feeds_after (P := (·.phase = .stopped))
          (fun _ _ stopped feeds => feeds.phase.2 stopped) admitted stopped)
      rw [List.cons_append, publishedAtStop_cons now]
      exact ih rest going

/-! ## 4. When the lanes are drained -/

theorem subscribers_ne_nil {l : Lane} (mem : l ∈ e.lanes) : e.subscribers ≠ [] :=
  List.ne_nil_of_mem (List.mem_map_of_mem mem)

/-- Once nobody passes events on, everything that is due has been passed on, and nothing else. -/
theorem Dues.forwarded_eq (h : Dues due e) (paced : e.Paced) (tracked : e.Tracked)
    (some : e.subscribers ≠ []) (away : e.pump ≠ .receiving) : e.forwarded.reverse = due := by
  cases pump : e.pump with
  | absent => exact h.handed pump some
  | receiving => exact absurd pump away
  | closing =>
      have marked := h.marked (by rw [pump]; decide)
      exact (paced.last (.inl pump)).eq_of_prefixes marked tracked.order h.before
  | ended =>
      have marked := h.marked (by rw [pump]; decide)
      exact (paced.last (.inr pump)).eq_of_prefixes marked tracked.order h.before

theorem Dues.isOpen_iff (h : Dues due e) (paced : e.Paced) {l : Lane} (mem : l ∈ e.lanes) :
    l.isOpen = true ↔ e.pump = .receiving := by
  have idle : e.dispatch ≠ .buffered := by rw [h.taken]; decide
  rw [paced.serves l mem, Serves, or_iff_right idle]

/-- Without anything due, nothing was given to anybody. -/
theorem Dues.drained_of_nil (h : Dues [] e) (tracked : e.Tracked) :
    Drained [] e.lanes := by
  intro l mem
  have absent : e.pump = .absent := by
    by_contra there
    obtain ⟨rest, marker, split, -⟩ := h.marked there
    exact absurd split.symm (List.append_ne_nil_of_right_ne_nil _ (List.cons_ne_nil _ _))
  have none := h.handed absent (subscribers_ne_nil mem)
  obtain ⟨steady, accepted⟩ := tracked.fills l mem
  have order := steady.order
  rw [accepted, none] at order
  have given := List.prefix_nil.mp order
  have busy := steady.busy
  rw [given] at busy
  exact ⟨given, List.eq_nil_of_subset_nil busy⟩

theorem Dues.drained_of_gone (h : Dues due e) (paced : e.Paced) (tracked : e.Tracked)
    (unlost : e.Unlost) (gone : ∀ l ∈ e.lanes, l.isOpen = false ∧ l.isGone = true) :
    Drained due e.lanes := by
  intro l mem
  obtain ⟨closed, gone⟩ := gone l mem
  have away : e.pump ≠ .receiving := by
    intro receiving
    rw [(h.isOpen_iff paced mem).mpr receiving] at closed
    cases closed
  constructor
  · rw [unlost.given l mem gone, (tracked.fills l mem).2]
    exact h.forwarded_eq paced tracked (subscribers_ne_nil mem) away
  · rw [Lane.inHand, Lane.worker_of_isGone gone]

/-- A lane that has dealt with something that was due to the end is closed, and its worker has
ended. -/
theorem Dues.gone_of_drained (h : Dues due e) (paced : e.Paced) (tracked : e.Tracked)
    (some : due ≠ []) (drained : Drained due e.lanes) :
    ∀ l ∈ e.lanes, l.isOpen = false ∧ l.isGone = true := by
  intro l mem
  obtain ⟨given, inHand⟩ := drained l mem
  obtain ⟨steady, accepted⟩ := tracked.fills l mem
  have away : e.pump ≠ .receiving := by
    -- a pump that receives has not yet passed on the end marker
    intro receiving
    have marked := h.marked (by rw [receiving]; decide)
    have behind : e.forwarded.reverse.length < due.length := by
      refine marked.length_lt ?_ h.before tracked.order
      intro event memEvent
      exact paced.goesOn receiving event (List.mem_reverse.mp memEvent)
    have enough := steady.order.length_le
    rw [given, accepted] at enough
    omega
  have closed : l.isOpen = false := by
    apply Bool.eq_false_iff.mpr
    intro isOpen
    exact away ((h.isOpen_iff paced mem).mp isOpen)
  refine ⟨closed, ?_⟩
  by_contra alive
  have alive' : l.isGone = false := Bool.eq_false_iff.mpr alive
  have all := h.forwarded_eq paced tracked (subscribers_ne_nil mem) away
  have queued := steady.queued alive'
  rw [accepted, all, given] at queued
  have empty : l.queue = [] := List.self_eq_append_right.mp queued
  cases worker : l.worker with
  | waiting =>
      have nothing := steady.rests closed worker empty
      rw [accepted] at nothing
      rw [nothing] at all
      exact some all.symm
  | handling event until_ =>
      rw [Lane.inHand, worker] at inHand
      cases inHand
  | gone =>
      rw [Lane.isGone, worker] at alive'
      cases alive'

/-- **As long as no event is lost, the lanes are drained exactly if they are closed and their workers
have ended**, unless nothing is due. -/
theorem Dues.drained_iff (h : Dues due e) (paced : e.Paced) (tracked : e.Tracked)
    (unlost : e.Unlost) : Drained due e.lanes ↔
      due = [] ∨ ∀ l ∈ e.lanes, l.isOpen = false ∧ l.isGone = true := by
  constructor
  · intro drained
    by_cases none : due = []
    · exact .inl none
    · exact .inr (h.gone_of_drained paced tracked none drained)
  · rintro (none | gone)
    · subst none
      exact h.drained_of_nil tracked
    · exact h.drained_of_gone paced tracked unlost gone

/-! ## 5. Calls -/

/-- Whether the poll may be one of a call: besides, the last wait is for the pump if there is one, and
for the workers if the shutdown has fed the lanes itself. -/
def Poll.belongs (e : Engine) (p : Poll) : Bool :=
  p.fits e && match p.shutdown.stage with
    | .draining => true
    | .awaitingPump => e.pump != .absent
    | .awaitingWorkers => e.pump == .absent

theorem Feeds.absent (feeds : Feeds e e') (paced : e.Paced) (stopped : e.phase = .stopped) :
    e'.pump = .absent ↔ e.pump = .absent := by
  cases feeds with
  | publishes published phase => rw [published.pump]
  | start token fresh => cases stopped.symm.trans fresh
  | announceEnd stopped => exact Iff.rfl
  | beginFlush s stopped => exact absent_beginFlush paced s
  | receive => exact e.absent_receive
  | work i => rw [pump_workLane]

theorem belongs_after {s : Shutdown} {moves : List Move} (ready : e.Ready)
    (belongs : (Poll.waits s).belongs e = true) (admitted : e.admits moves = true) :
    (Poll.waits s).belongs (e.after moves) = true := by
  obtain ⟨fits, stage⟩ := Bool.and_eq_true_iff.mp belongs
  by_cases draining : s.stage = .draining
  · have closing : e.isClosing = true := by simpa [Poll.fits, draining] using fits
    have closing' : (e.after moves).isClosing = true :=
      feeds_after (P := (·.isClosing = true)) (fun _ _ closing feeds => feeds.isClosing closing)
        admitted closing
    simp [Poll.belongs, Poll.fits, Poll.shutdown, draining, closing']
  · have stopped := stopped_of_flushing fits draining
    obtain ⟨-, stopped', absent⟩ : (e.after moves).Ready ∧ (e.after moves).phase = .stopped ∧
        ((e.after moves).pump = .absent ↔ e.pump = .absent) := by
      refine feeds_after (P := fun now => now.Ready ∧ now.phase = .stopped ∧
        (now.pump = .absent ↔ e.pump = .absent)) ?_ admitted ⟨ready, stopped, Iff.rfl⟩
      rintro now next ⟨ready, stopped, absent⟩ feeds
      exact ⟨ready.feeds feeds, feeds.phase.2 stopped,
        (feeds.absent ready.traced.paced stopped).trans absent⟩
    cases kind : s.stage with
    | draining => exact absurd kind draining
    | awaitingPump =>
        have there : e.pump ≠ .absent := by simpa [Poll.shutdown, kind] using stage
        simp [Poll.belongs, Poll.fits, Poll.shutdown, kind, stopped', absent, there]
    | awaitingWorkers =>
        have none : e.pump = .absent := by simpa [Poll.shutdown, kind] using stage
        simp [Poll.belongs, Poll.fits, Poll.shutdown, kind, stopped', absent, none]

theorem turnFlush_goesOn {s next : Shutdown} (waits : e.turnFlush s = .ok next) : next = s := by
  rcases e.turnFlush_cases s with ends | same
  · cases ends.symm.trans waits
  · exact Except.ok.inj (waits.symm.trans same)

/-- A last wait that has begun and goes on is for the pump, if there is one, or for the workers. -/
theorem belongs_beginFlush {s next : Shutdown} (ready : e.Ready) (stopped : e.phase = .stopped)
    (waits : (e.beginFlush s).2 = .ok next) :
    (Poll.waits next).belongs (e.beginFlush s).1 = true := by
  have phase := (aside_beginFlush e s).phase.trans stopped
  have absent := absent_beginFlush ready.traced.paced s
  have step := e.beginFlush_step s
  generalize e.beginFlush s = begun at step waits phase absent ⊢
  cases step with
  | taken idle => cases waits
  | pump busy =>
      dsimp only at waits
      rw [turnFlush_goesOn waits]
      have there := ready.staffed.pumping busy
      simp [Poll.belongs, Poll.fits, Poll.shutdown, stopped, there]
  | lanes buffered =>
      dsimp only at waits phase absent
      rw [turnFlush_goesOn waits]
      have none := absent.mpr (ready.traced.paced.fresh buffered).1
      simp [Poll.belongs, Poll.fits, Poll.shutdown, phase, none]

theorem belongs_turnShutdown {s next : Shutdown} (ready : e.Ready)
    (belongs : (Poll.waits s).belongs e = true) (waits : (e.turnShutdown s).2 = .ok next) :
    (Poll.waits next).belongs (e.turnShutdown s).1 = true := by
  by_cases draining : s.stage = .draining
  · simp only [turnShutdown, draining] at waits ⊢
    by_cases idle : e.isIdle = true
    · rw [if_pos idle] at waits ⊢
      exact belongs_beginFlush ((ready_finalize ready).feeds (.announceEnd rfl)) rfl waits
    · rw [if_neg idle] at waits ⊢
      by_cases reached : e.boundReached s.bound = true
      · rw [if_pos reached] at waits
        cases waits
      · rw [if_neg reached] at waits ⊢
        rw [← Except.ok.inj waits]
        exact belongs
  · rw [turnShutdown_of_flushing draining] at waits ⊢
    rw [turnFlush_goesOn waits]
    exact belongs

theorem ready_asked (ready : e.Ready) : e.asked.Ready := by
  unfold asked
  split
  · rename_i running
    have silent : Published e e.beginStopping [] := published_nothing rfl
    exact ready.feeds (.publishes (silent.trans (published_announce _ none rfl))
      (.inr (.inl ⟨running, rfl⟩)))
  · exact ready

theorem dispatch_asked (e : Engine) : e.asked.dispatch = e.dispatch := by
  unfold asked
  split <;> rfl

theorem belongs_asked {s : Shutdown} (started : e.phase = .running ∨ e.phase = .stopping)
    (draining : s.stage = .draining) : (Poll.waits s).belongs e.asked = true := by
  simp [Poll.belongs, Poll.fits, Poll.shutdown, draining, isClosing, phase_asked started]

theorem belongs_poll {p : Poll} {s : Shutdown} (ready : e.Ready) (belongs : p.belongs e = true)
    (waits : (e.poll p).2 = .ok s) : (Poll.waits s).belongs (e.poll p).1 = true := by
  by_cases started : e.phase = .running ∨ e.phase = .stopping
  · obtain ⟨is, draining⟩ := poll_of_started started (Bool.and_eq_true_iff.mp belongs).1
    rw [is] at waits ⊢
    exact belongs_turnShutdown (ready_asked ready) (belongs_asked started draining) waits
  · cases p with
    | waits s => exact belongs_turnShutdown ready belongs waits
    | asks bound grace =>
        cases phase : e.phase with
        | notStarted =>
            simp only [poll, shutdown, phase] at waits ⊢
            exact belongs_beginFlush (ready_finalize ready) rfl waits
        | running => exact absurd (.inl phase) started
        | stopping => exact absurd (.inr phase) started
        | stopped =>
            simp only [poll, shutdown, phase] at waits
            cases waits

/-- Whatever happens between two polls of a call that is not over, the next one belongs too: no call
is left out. -/
theorem belongs_next {p : Poll} {s : Shutdown} {moves : List Move} (ready : e.Ready)
    (belongs : p.belongs e = true) (waits : (e.poll p).2 = .ok s)
    (admitted : (e.poll p).1.admits moves = true) :
    (Poll.waits s).belongs ((e.poll p).1.after moves) = true := by
  have allowed := allows_move (Bool.and_eq_true_iff.mp belongs).1
  have ready' : (e.perform p.move).Ready := feeds_perform (fun _ _ h => Ready.feeds h) allowed ready
  rw [perform_move] at ready'
  exact belongs_after ready' (belongs_poll ready belongs waits) admitted

/-! ## 6. Calls that wait for the lanes themselves -/

/-- A last wait that is over before its bound was for lanes that are closed, until their workers had
ended. -/
theorem gone_of_turnFlush {s : Shutdown} (paced : e.Paced) (taken : e.dispatch = .idle)
    (flushing : s.stage ≠ .draining) (alone : s.stage = .awaitingWorkers → e.pump = .absent)
    (returns : e.turnFlush s = .error (.ok ())) (early : e.boundReached s.bound = false) :
    ∀ l ∈ e.lanes, l.isOpen = false ∧ l.isGone = true := by
  have waited : allGone e.lanes = true ∧ e.pump ≠ .receiving := by
    cases stage : s.stage with
    | draining => exact absurd stage flushing
    | awaitingPump =>
        have ended : e.pump = .ended := by
          by_contra other
          simp [turnFlush, stage, early, other] at returns
        exact ⟨paced.ended ended, by rw [ended]; decide⟩
    | awaitingWorkers =>
        have gone : allGone e.lanes = true := by
          by_contra some
          simp [turnFlush, stage, early, some] at returns
        exact ⟨gone, by rw [alone stage]; decide⟩
  obtain ⟨gone, away⟩ := waited
  intro l mem
  refine ⟨?_, List.all_eq_true.mp gone l mem⟩
  apply Bool.eq_false_iff.mpr
  intro isOpen
  rcases (paced.serves l mem).mp isOpen with buffered | receiving
  · cases taken.symm.trans buffered
  · exact away receiving

theorem gone_of_beginFlush {s : Shutdown} (paced : e.Paced) (untaken : e.dispatch ≠ .idle)
    (returns : (e.beginFlush s).2 = .error (.ok ()))
    (early : (e.beginFlush s).1.boundReached s.bound = false) :
    ∀ l ∈ (e.beginFlush s).1.lanes, l.isOpen = false ∧ l.isGone = true := by
  have after := paced.beginFlush s
  have taken := dispatch_beginFlush e s
  have absent := absent_beginFlush paced s
  have step := e.beginFlush_step s
  generalize e.beginFlush s = begun at step returns early after taken absent ⊢
  cases step with
  | taken idle => exact absurd idle untaken
  | pump pumping =>
      exact gone_of_turnFlush (s := { s with stage := .awaitingPump }) after taken
        (fun draining => nomatch draining) (fun workers => nomatch workers) returns early
  | lanes buffered =>
      exact gone_of_turnFlush (s := { s with stage := .awaitingWorkers }) after taken
        (fun draining => nomatch draining) (fun _ => absent.mpr (paced.fresh buffered).1) returns early

/-- A shutdown that succeeds leaves the engine stopped; if the way to the lanes is not taken when it
succeeds, or it has taken it before, the lanes are closed and their workers have ended. -/
theorem turnShutdown_succeeds {s : Shutdown} (ready : e.Ready)
    (taken : e.phase = .stopped → e.dispatch = .idle)
    (belongs : (Poll.waits s).belongs e = true) (returns : (e.turnShutdown s).2 = .error (.ok ())) :
    (e.turnShutdown s).1.phase = .stopped ∧
      (s.stage ≠ .draining ∨ e.dispatch ≠ .idle →
        (e.turnShutdown s).1.boundReached s.bound = false →
        ∀ l ∈ (e.turnShutdown s).1.lanes, l.isOpen = false ∧ l.isGone = true) := by
  by_cases draining : s.stage = .draining
  · simp only [turnShutdown, draining] at returns ⊢
    by_cases idle : e.isIdle = true
    · rw [if_pos idle] at returns ⊢
      have closed := (ready_finalize ready).feeds (.announceEnd rfl)
      refine ⟨(aside_beginFlush _ s).phase, fun untaken early => ?_⟩
      have untaken' : e.dispatch ≠ .idle := untaken.resolve_left fun flushing => flushing rfl
      exact gone_of_beginFlush closed.traced.paced untaken' returns early
    · rw [if_neg idle] at returns
      by_cases reached : e.boundReached s.bound = true
      · rw [if_pos reached] at returns
        cases returns
      · rw [if_neg reached] at returns
        cases returns
  · obtain ⟨fits, stage⟩ := Bool.and_eq_true_iff.mp belongs
    have stopped := stopped_of_flushing fits draining
    rw [turnShutdown_of_flushing draining] at returns ⊢
    refine ⟨stopped, fun _ early => ?_⟩
    refine gone_of_turnFlush ready.traced.paced (taken stopped) draining ?_ returns early
    intro workers
    simpa [Poll.shutdown, workers] using stage

theorem poll_succeeds {p : Poll} (ready : e.Ready) (still : e.Still) (belongs : p.belongs e = true)
    (returns : (e.poll p).2 = .error (.ok ())) :
    (e.poll p).1.phase = .stopped ∧
      (p.shutdown.stage ≠ .draining ∨ e.dispatch ≠ .idle →
        (e.poll p).1.boundReached p.shutdown.bound = false →
        ∀ l ∈ (e.poll p).1.lanes, l.isOpen = false ∧ l.isGone = true) := by
  by_cases started : e.phase = .running ∨ e.phase = .stopping
  · obtain ⟨is, draining⟩ := poll_of_started started (Bool.and_eq_true_iff.mp belongs).1
    rw [is] at returns ⊢
    rw [← dispatch_asked e]
    refine turnShutdown_succeeds (ready_asked ready) ?_ (belongs_asked started draining) returns
    intro stopped
    cases (phase_asked started).symm.trans stopped
  · cases p with
    | waits s =>
        exact turnShutdown_succeeds ready (fun stopped => (still.settled stopped).taken) belongs returns
    | asks bound grace =>
        -- the call is the first one, or comes after the stop
        have first (untaken : ShutdownStage.draining ≠ .draining ∨ e.dispatch ≠ .idle) :
            e.dispatch ≠ .idle := untaken.resolve_left fun flushing => flushing rfl
        cases phase : e.phase with
        | notStarted =>
            simp only [poll, shutdown, phase] at returns ⊢
            refine ⟨(aside_beginFlush _ _).phase, fun untaken early => ?_⟩
            exact gone_of_beginFlush (ready_finalize ready).traced.paced (first untaken) returns early
        | running => exact absurd (.inl phase) started
        | stopping => exact absurd (.inr phase) started
        | stopped =>
            simp only [poll, shutdown, phase]
            exact ⟨trivial, fun untaken => absurd (still.settled phase).taken (first untaken)⟩

/-! ## 7. All histories -/

/-- A shutdown succeeds in this poll, before its bound is reached, and no event has been lost. -/
structure Succeeds (config : Config) (subs : List Subscriber) (moves : List Move) (p : Poll) :
    Prop where
  admitted : (create config subs).admits moves = true
  belongs : p.belongs ((create config subs).after moves) = true
  returns : (((create config subs).after moves).poll p).2 = .error (.ok ())
  early : (((create config subs).after moves).poll p).1.boundReached p.shutdown.bound = false
  lossless : (((create config subs).after moves).poll p).1.Lossless

/-- **When the success of a shutdown means that the lanes are drained.**  In every history, with any
number of shutdowns, and whenever one of them succeeds before its bound, no event having been lost:
unless nothing is due, the lanes are drained exactly if they are closed and their workers have ended.
They are drained if that shutdown has taken over the way to the lanes, in this poll or before; one
that finds the way taken, or the engine stopped, does not wait for it.  If the engine has ever been
running, what is due ends with `AllStoppedWithin`, the first that was published. -/
theorem shutdown_succeeds_drained_iff (config : Config) (subs : List Subscriber) (moves : List Move)
    (p : Poll) (succeeds : Succeeds config subs moves p) :
    let e := (create config subs).after moves
    let e' := (e.poll p).1
    let due := (create config subs).publishedAtStop (moves ++ [p.move])
    (Drained due e'.lanes ↔ due = [] ∨ ∀ l ∈ e'.lanes, l.isOpen = false ∧ l.isGone = true) ∧
    (p.shutdown.stage ≠ .draining ∨ e.dispatch ≠ .idle → Drained due e'.lanes) ∧
    ∀ before rest, moves = before ++ rest →
      ((create config subs).after before).phase = .running → EndsMarked due := by
  intro e e' due
  have ready : e.Ready := ready_after succeeds.admitted
  obtain ⟨stopped, gone⟩ := poll_succeeds ready (still_after succeeds.admitted) succeeds.belongs
    succeeds.returns
  have fits := (Bool.and_eq_true_iff.mp succeeds.belongs).1
  -- the poll is the last move of the history
  have is : (create config subs).after (moves ++ [p.move]) = e' := by
    rw [after_append]
    exact perform_move e p
  have admitted : (create config subs).admits (moves ++ [p.move]) = true :=
    (admits_append ..).mpr ⟨succeeds.admitted, (admits_cons ..).mpr ⟨allows_move fits, rfl⟩⟩
  have stopped' : ((create config subs).after (moves ++ [p.move])).phase = .stopped := by
    rw [is]
    exact stopped
  have dues : Dues due ((create config subs).after (moves ++ [p.move])) := by
    refine dues_after (ready_create config subs) (fun stopped => nomatch stopped) admitted stopped' ?_
    rw [is]
    exact succeeds.lossless
  have traced : ((create config subs).after (moves ++ [p.move])).Traced := traced_after admitted
  rw [is] at dues traced
  have tracked := traced.tracked succeeds.lossless
  have unlost := succeeds.lossless.toUnlost
  refine ⟨dues.drained_iff traced.paced tracked unlost, fun waits => ?_, ?_⟩
  · exact dues.drained_of_gone traced.paced tracked unlost (gone waits succeeds.early)
  · rintro before rest rfl running
    rw [List.append_assoc] at admitted stopped'
    obtain ⟨first, second⟩ := (admits_append ..).mp admitted
    rw [after_append] at stopped'
    have going : ((create config subs).after before).phase ≠ .stopped := by
      rw [running]
      decide
    show EndsMarked ((create config subs).publishedAtStop ((before ++ rest) ++ [p.move]))
    rw [List.append_assoc, publishedAtStop_append first going]
    exact endsMarked_publishedAtStop (ready_after first) (.inl running) second stopped'

def quietSubscriber : Subscriber := { name := "s" }

/-- A shutdown has stopped the engine and waits for the pump, which has read nothing yet. -/
def flushingHistory : List Move :=
  [.start (.named "t"), .shutdown (.token (.named "never")) .zero, .watch,
    .awaitShutdown { bound := .token (.named "never"), grace := .zero }]

/-- The pump and the worker have done the rest. -/
def flushedHistory : List Move := flushingHistory ++ [.receive, .receive, .receive, .work 0, .receive]

/-- The shutdown that took over the way to the lanes is polled once they are drained. -/
theorem shutdown_succeeds_drained_flushed :
    let p := Poll.waits { bound := .token (.named "never"), grace := .zero, stage := .awaitingPump }
    Succeeds {} [quietSubscriber] flushedHistory p ∧
      Drained ((create {} [quietSubscriber]).publishedAtStop (flushedHistory ++ [p.move]))
        (((create {} [quietSubscriber]).after flushedHistory).poll p).1.lanes := by
  intro p
  have succeeds : Succeeds {} [quietSubscriber] flushedHistory p :=
    ⟨by decide, by decide, rfl, by decide, ⟨by decide, by decide, by decide⟩, fun _ => by decide⟩
  obtain ⟨-, drained, -⟩ :=
    shutdown_succeeds_drained_iff {} [quietSubscriber] flushedHistory p succeeds
  exact ⟨succeeds, drained (.inl (by decide))⟩

/-- A second shutdown while the first one waits for the pump: it succeeds at once, nothing has been
lost, and the subscriber has not even been given the first event. -/
theorem overlapping_shutdown_not_drained :
    let p := Poll.asks (.token (.named "later")) .zero
    Succeeds {} [quietSubscriber] flushingHistory p ∧
      ¬Drained ((create {} [quietSubscriber]).publishedAtStop (flushingHistory ++ [p.move]))
        (((create {} [quietSubscriber]).after flushingHistory).poll p).1.lanes := by
  intro p
  refine ⟨⟨by decide, by decide, rfl, by decide, ⟨by decide, by decide, by decide⟩,
    fun _ => by decide⟩, fun drained => ?_⟩
  obtain ⟨l, mem, given⟩ : ∃ l ∈ (((create {} [quietSubscriber]).after flushingHistory).poll p).1.lanes,
      l.given = [] := ⟨_, List.mem_singleton_self _, rfl⟩
  have nothing := (drained l mem).1.symm.trans given
  have some : (create {} [quietSubscriber]).publishedAtStop (flushingHistory ++ [p.move]) ≠ [] := by
    decide
  exact some nothing

end Engine

end TaskEngine
