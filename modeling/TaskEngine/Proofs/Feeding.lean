/-
  TaskEngine/Proofs/Feeding.lean
  ==============================
  **What changes do to the ring, the pump and the lanes.**

  Seen from the lanes, an engine does little: it publishes ordinary events, which only the ring
  notices (`Published`); it sets up the pump, publishes the end marker and begins the last wait of a
  shutdown; and the pump and the workers take turns.  `Change.feeds` sorts all changes accordingly.

  Two invariants follow.  Until the engine has stopped there is no end marker, so the pump keeps
  receiving (`Attended`).  And if subscribers panic over reports of panics and over the end marker
  at most, then no report of a panic can come about as long as the pump receives (`Guarded`).
-/
import TaskEngine.Proofs.Changes
import TaskEngine.Proofs.Lanes

namespace TaskEngine

/-- Whether events of this kind are neither reports of panics nor the end marker. -/
def EventKind.isTame : EventKind → Bool
  | .subscriberPanicked | .allStoppedWithin => false
  | _ => true

namespace Engine

variable {e e' : Engine}

/-- The events that were passed on to the lanes, the newest first. -/
def forwarded (e : Engine) : List Event := e.journal.filterMap (·.note.forwarded?)

def subscribers (e : Engine) : List Subscriber := e.lanes.map (·.subscriber)

/-! ## 1. Turns of the pump and the workers -/

inductive ReceiveStep (e : Engine) : Engine → Prop where
  | nothing (idle : e.canPump = false) : ReceiveStep e e
  | passes (event : Event) (cursor : Nat) (receiving : e.pump = .receiving)
      (next : e.bus.next? e.cursor = some (event, cursor)) (goesOn : event.kind ≠ .allStoppedWithin) :
      ReceiveStep e ({ e with cursor }.emit event)
  | ends (event : Event) (cursor : Nat) (receiving : e.pump = .receiving)
      (next : e.bus.next? e.cursor = some (event, cursor)) (last : event.kind = .allStoppedWithin) :
      ReceiveStep e ({ e with cursor }.emit event).closeLanes.awaitWorkers
  | awaits (closing : e.pump = .closing) : ReceiveStep e e.awaitWorkers

theorem receive_step (e : Engine) : ReceiveStep e e.receive := by
  unfold receive
  split
  · rename_i receiving
    split
    · rename_i next
      exact .nothing (by rw [canPump, receiving]; simp [next])
    · rename_i next
      dsimp only
      split
      · exact .ends _ _ receiving next ‹_›
      · exact .passes _ _ receiving next ‹_›
  · exact .awaits ‹_›
  · rename_i absent
    exact .nothing (by rw [canPump, absent])
  · rename_i ended
    exact .nothing (by rw [canPump, ended])

theorem mem_emitTo {lanes : List Lane} {event : Event} {l : Lane}
    (mem : l ∈ (emitTo lanes event).1) : ∃ old ∈ lanes, l = old.offer event := by
  obtain ⟨old, memOld, rfl⟩ := List.mem_map.mp mem
  exact ⟨old, memOld, rfl⟩

theorem kind_of_mem_emitTo {lanes : List Lane} {event report : Event}
    (mem : report ∈ (emitTo lanes event).2) : report.kind = .subscriberOverflow := by
  obtain ⟨l, -, found⟩ := List.mem_filterMap.mp mem
  unfold Lane.offerReport? at found
  split at found
  · cases found
  · obtain ⟨r, -, rfl⟩ := Option.map_eq_some_iff.mp found
    rfl

theorem forwarded_emit (e : Engine) (event : Event) :
    (e.emit event).forwarded = event :: e.forwarded := by
  have none : ((emitTo e.lanes event).2.map fun report : Event =>
      (⟨e.now, .published report Option.none⟩ : Entry)).reverse.filterMap (·.note.forwarded?) =
        [] := by
    apply List.filterMap_eq_nil_iff.mpr
    intro entry mem
    obtain ⟨report, -, rfl⟩ := List.mem_map.mp (List.mem_reverse.mp mem)
    rfl
  rw [emit_eq, forwarded, List.filterMap_append, none]
  rfl

theorem forwarded_workLane (e : Engine) (i : Nat) : (e.workLane i).forwarded = e.forwarded := by
  have none : ((TaskEngine.workLane e.now e.lanes i).2.map fun report : Event =>
      (⟨e.now, .published report Option.none⟩ : Entry)).reverse.filterMap (·.note.forwarded?) =
        [] := by
    apply List.filterMap_eq_nil_iff.mpr
    intro entry mem
    obtain ⟨report, -, rfl⟩ := List.mem_map.mp (List.mem_reverse.mp mem)
    rfl
  rw [workLane_eq, forwarded, List.filterMap_append, none]
  rfl

theorem workLane_cases (e : Engine) (i : Nat) :
    (e.lanes[i]? = none ∧ e.workLane i = e) ∨
    ∃ l, e.lanes[i]? = some l ∧ (e.workLane i).lanes = e.lanes.set i (l.work e.now).1 ∧
      (e.workLane i).bus = (l.work e.now).2.foldl Ring.push e.bus := by
  rw [workLane_eq]
  unfold TaskEngine.workLane
  cases found : e.lanes[i]? with
  | none => exact .inl ⟨rfl, rfl⟩
  | some l => exact .inr ⟨l, rfl, rfl, rfl⟩

theorem kept_foldl (events : List Event) (r : Ring Event) :
    (events.foldl Ring.push r).kept = (events.reverse ++ r.kept).take r.capacity := by
  induction events generalizing r with
  | nil =>
      have few : r.kept.length ≤ r.capacity := by
        rw [r.kept_length]
        exact Nat.min_le_right _ _
      exact (List.take_of_length_le few).symm
  | cons event events ih =>
      rw [List.foldl_cons, ih, Ring.push_kept, Ring.push_capacity, List.reverse_cons,
        List.append_assoc, List.singleton_append, List.take_append, List.take_append, List.take_take,
        Nat.min_eq_left (Nat.sub_le _ _)]

theorem mem_kept_foldl {events : List Event} {r : Ring Event} {event : Event}
    (mem : event ∈ (events.foldl Ring.push r).kept) : event ∈ events ∨ event ∈ r.kept := by
  rw [kept_foldl] at mem
  exact (List.mem_append.mp (List.mem_of_mem_take mem)).imp_left List.mem_reverse.mp

theorem mem_kept_foldl_of_full {events : List Event} {r : Ring Event} {event : Event}
    (full : r.capacity ≤ events.length) (mem : event ∈ (events.foldl Ring.push r).kept) :
    event ∈ events := by
  rw [kept_foldl, List.take_append_of_le_length (by rw [List.length_reverse]; exact full)] at mem
  exact List.mem_reverse.mp (List.mem_of_mem_take mem)

theorem forall_kept_foldl {p : Event → Prop} {events : List Event} {r : Ring Event}
    (new : ∀ event ∈ events, p event) (old : ∀ event ∈ r.kept, p event) :
    ∀ event ∈ (events.foldl Ring.push r).kept, p event := by
  intro event mem
  rcases mem_kept_foldl mem with mem | mem
  · exact new event mem
  · exact old event mem

theorem sent_foldl (events : List Event) (r : Ring Event) :
    (events.foldl Ring.push r).sent = r.sent + events.length := by
  induction events generalizing r with
  | nil => rfl
  | cons first rest ih =>
      rw [List.foldl_cons, ih, Ring.push_sent, List.length_cons]
      omega

theorem sent_le_foldl (events : List Event) (r : Ring Event) :
    r.sent ≤ (events.foldl Ring.push r).sent := by
  rw [sent_foldl]
  exact Nat.le_add_right _ _

theorem capacity_foldl (events : List Event) (r : Ring Event) :
    (events.foldl Ring.push r).capacity = r.capacity := by
  induction events generalizing r with
  | nil => rfl
  | cons first rest ih => exact ih (r.push first)

theorem oldest_le_foldl (events : List Event) (r : Ring Event) :
    r.oldest ≤ (events.foldl Ring.push r).oldest := by
  rw [Ring.oldest, Ring.oldest, sent_foldl, capacity_foldl]
  omega

/-- As long as there is room for them, further entries cost a reader nothing. -/
theorem unread_foldl_of_room (events : List Event) {r : Ring Event} {cursor : Nat}
    (trails : cursor ≤ r.sent) (room : (r.unread cursor).length + events.length ≤ r.capacity) :
    (events.foldl Ring.push r).unread cursor = r.unread cursor ++ events := by
  induction events generalizing r with
  | nil => exact (List.append_nil _).symm
  | cons event events ih =>
      rw [List.length_cons] at room
      have pushed := Ring.unread_push_of_room (a := event) trails (by omega)
      have rest := ih (r := r.push event) (Nat.le_succ_of_le trails) (by
        rw [pushed, List.length_append, List.length_singleton, Ring.push_capacity]
        omega)
      rw [List.foldl_cons, rest, pushed, List.append_assoc, List.singleton_append]

/-- Nothing that is unread was written over. -/
theorem unread_foldl_of_kept {events : List Event} {r : Ring Event} {cursor : Nat}
    (trails : cursor ≤ r.sent) (kept : (events.foldl Ring.push r).oldest ≤ cursor) :
    (events.foldl Ring.push r).unread cursor = r.unread cursor ++ events := by
  refine unread_foldl_of_room events trails ?_
  rw [Ring.oldest, sent_foldl, capacity_foldl] at kept
  rw [Ring.length_unread, Ring.backlog]
  omega

/-! ## 2. What a change does for the lanes -/

/-- Nothing but ordinary events was published, as far as the lanes are concerned. -/
structure Published (e e' : Engine) (events : List Event) : Prop where
  bus : e'.bus = events.foldl Ring.push e.bus
  cursor : e'.cursor = e.cursor
  lanes : e'.lanes = e.lanes
  dispatch : e'.dispatch = e.dispatch
  pump : e'.pump = e.pump
  forwarded : e'.forwarded = e.forwarded
  published : e'.published = e.published ++ events
  ordinary : ∀ event ∈ events, event.kind.isOrdinary = true

/-- What of an engine has to do with the lanes. -/
def feed (e : Engine) : Ring Event × Nat × List Lane × Dispatch × Pump × List Event × List Event :=
  (e.bus, e.cursor, e.lanes, e.dispatch, e.pump, e.forwarded, e.published)

theorem published_nothing (same : e'.feed = e.feed) : Published e e' [] := by
  simp only [feed, Prod.mk.injEq] at same
  obtain ⟨bus, cursor, lanes, dispatch, pump, forwarded, published⟩ := same
  exact ⟨bus, cursor, lanes, dispatch, pump, forwarded, by rw [published, List.append_nil],
    fun _ mem => absurd mem List.not_mem_nil⟩

theorem Published.trans {e'' : Engine} {first second : List Event} (h : Published e e' first)
    (next : Published e' e'' second) : Published e e'' (first ++ second) := by
  refine ⟨?_, next.cursor.trans h.cursor, next.lanes.trans h.lanes, next.dispatch.trans h.dispatch,
    next.pump.trans h.pump, next.forwarded.trans h.forwarded, ?_, ?_⟩
  · rw [next.bus, h.bus, List.foldl_append]
  · rw [next.published, h.published, List.append_assoc]
  · intro event mem
    exact (List.mem_append.mp mem).elim (h.ordinary event) (next.ordinary event)

theorem Published.kind_ne {events : List Event} (h : Published e e' events) {k : EventKind}
    (special : k.isOrdinary = false) : ∀ event ∈ events, event.kind ≠ k := by
  intro event mem same
  have ordinary := h.ordinary event mem
  rw [same, special] at ordinary
  cases ordinary

theorem published_of_note (e : Engine) {n : Note} (silent : n.published? = none) :
    (e.note n).published = e.published :=
  congrArg List.reverse (List.filterMap_cons_none silent)

/-- An event that is published comes last. -/
theorem published_of_announce (e : Engine) (event : Event) (task : Option TaskId) :
    (e.announce event task).published = e.published ++ [event] :=
  List.reverse_cons

theorem published_note (e : Engine) {n : Note} (own : n.forwarded? = none)
    (silent : n.published? = none) : Published e (e.note n) [] := by
  have forwarded : (e.note n).forwarded = e.forwarded := List.filterMap_cons_none own
  apply published_nothing
  simp only [feed, forwarded, published_of_note e silent]
  rfl

theorem published_announce (e : Engine) {event : Event} (task : Option TaskId)
    (ordinary : event.kind.isOrdinary = true) : Published e (e.announce event task) [event] :=
  ⟨rfl, rfl, rfl, rfl, rfl, rfl, published_of_announce e event task, by simpa using ordinary⟩

theorem published_beginRun (e : Engine) (t : TaskId) (merged : Bool) (waiters : List WaiterId) :
    Published e (e.beginRun t merged waiters) [] := by
  cases known : e.tasks[t]? with
  | none =>
      rw [beginRun, known]
      exact published_nothing rfl
  | some task =>
      rw [beginRun_eq known]
      exact published_nothing rfl

theorem published_request (e : Engine) (t : TaskId) (waiter : Option WaiterId) :
    ∃ events, Published e (e.request t waiter).1 events := by
  have step := e.request_step t waiter
  generalize e.request t waiter = answer at step ⊢
  cases step with
  | refused err => exact ⟨[], published_nothing rfl⟩
  | skipped task known full =>
      exact ⟨_, (published_announce e (some t) rfl).trans (published_nothing rfl)⟩
  | merged task known admits willing full overlap =>
      have folded : Published e (e.updateTask t (·.fold waiter)) [] := published_nothing rfl
      exact ⟨_, (folded.trans (published_announce _ (some t) rfl)).trans (published_nothing rfl)⟩
  | started task known admits willing room =>
      exact ⟨_, (published_beginRun e t false _).trans
        (published_nothing rfl)⟩

theorem published_finish (e : Engine) (id : RunId) (outcome : Outcome) :
    Published e (e.finish id outcome) [] := by
  have step := e.finish_step id outcome
  generalize e.finish id outcome = after at step ⊢
  cases step with
  | unknown => exact published_nothing rfl
  | last run task found known settled => exact published_nothing rfl
  | closed run task found known owed closing => exact published_nothing rfl
  | again run task found known owed admits =>
      have concluded : Published e (e.conclude run task outcome) [] :=
        published_nothing rfl
      exact concluded.trans (published_beginRun _ _ _ _)

inductive Feeds (e : Engine) : Engine → Prop where
  | publishes {e' : Engine} {events : List Event} (h : Published e e' events)
      (phase : e'.phase = e.phase ∨ e.phase = .running ∧ e'.phase = .stopping ∨
        e'.phase = .stopped) : Feeds e e'
  | start (token : Token) (fresh : e.phase = .notStarted) : Feeds e (e.entered token)
  | announceEnd (stopped : e.phase = .stopped) : Feeds e (e.publish { kind := .allStoppedWithin })
  | beginFlush (s : Shutdown) (stopped : e.phase = .stopped) : Feeds e (e.beginFlush s).1
  | receive : Feeds e e.receive
  | work (i : Nat) : Feeds e (e.workLane i)

theorem Calm.feeds (calm : Calm e e') : Feeds e e' := by
  cases calm with
  | clock now later => exact .publishes (published_nothing rfl) (.inl rfl)
  | note n remark own silent => exact .publishes (published_note e own silent) (.inl rfl)
  | announce event task due =>
      exact .publishes (published_announce e task (isOrdinary_of_announces due)) (.inl rfl)
  | announceEnd stopped => exact .announceEnd stopped
  | beginFlush s stopped => exact .beginFlush s stopped
  | receive => exact .receive
  | work i => exact .work i
  | cancel t => exact .publishes (published_nothing rfl) (.inl rfl)
  | start token fresh => exact .start token fresh
  | unwatch due => exact .publishes (published_nothing rfl) (.inl rfl)
  | beginStopping running =>
      exact .publishes (published_nothing rfl) (.inr (.inl ⟨running, rfl⟩))
  | setLoop t f keeps => exact .publishes (published_nothing rfl) (.inl rfl)
  | endLoop t cancelled => exact .publishes (published_nothing rfl) (.inl rfl)
  | setProgress id progress =>
      exact .publishes (published_nothing rfl) (.inl rfl)

theorem phase_request (e : Engine) (t : TaskId) (waiter : Option WaiterId) :
    (e.request t waiter).1.phase = e.phase := by
  have step := e.request_step t waiter
  generalize e.request t waiter = answer at step ⊢
  cases step with
  | refused err => rfl
  | skipped task known full => rfl
  | merged task known admits willing full overlap => rfl
  | started task known admits willing room =>
      rw [beginRun_eq known]
      rfl

theorem phase_finish (e : Engine) (id : RunId) (outcome : Outcome) :
    (e.finish id outcome).phase = e.phase := by
  have step := e.finish_step id outcome
  generalize e.finish id outcome = after at step ⊢
  cases step with
  | unknown => rfl
  | last run task found known settled => rfl
  | closed run task found known owed closing => rfl
  | again run task found known owed admits =>
      rw [beginRun_eq (known_conclude known outcome)]
      rfl

theorem Change.feeds {l : Licence} (change : Change l e e') : Feeds e e' := by
  cases change with
  | calm calm => exact calm.feeds
  | register spec status accepted room =>
      let listed : Engine := { e with
        tasks := e.tasks ++ [e.newRecord spec status]
        index := if spec.name = "" then e.index else e.index ++ [(spec.name, e.tasks.length)] }
      have silent : Published e listed [] := published_nothing rfl
      exact .publishes (silent.trans (published_announce _ _ rfl)) (.inl rfl)
  | stop idle covers =>
      exact .publishes (published_nothing rfl) (.inr (.inr rfl))
  | drain closing covers =>
      exact .publishes (published_nothing rfl) (.inl rfl)
  | request t =>
      obtain ⟨events, published⟩ := published_request e t none
      exact .publishes published (.inl (phase_request e t none))
  | requestWaiting t covers =>
      obtain ⟨events, published⟩ := published_request (e.drawSerial t) t (some (e.nextWaiter t))
      have drawn : Published e (e.drawSerial t) [] := published_nothing rfl
      exact .publishes (drawn.trans published) (.inl (phase_request _ t _))
  | detach w leaves => exact .publishes (published_nothing rfl) (.inl rfl)
  | finish id outcome covers =>
      exact .publishes (published_finish e id outcome) (.inl (phase_finish e id outcome))
  | abandon id refuses covers =>
      have kept : Published e (e.abandon id) [] ∧ (e.abandon id).phase = e.phase := by
        unfold Engine.abandon
        split <;> exact ⟨published_nothing rfl, rfl⟩
      exact .publishes kept.1 (.inl kept.2)

/-! ## 3. What passing events on keeps -/

/-- What is kept when one event is passed on is kept when any number of them is. -/
theorem forward_keeps {P : Engine → Prop} (pass : ∀ (e : Engine) (event : Event) (cursor : Nat),
    e.bus.next? e.cursor = some (event, cursor) → P e → P ({ e with cursor }.emit event))
    (untilEnd : Bool) (fuel : Nat) (he : P e) : P (e.forward untilEnd fuel).1 := by
  induction fuel generalizing e with
  | zero => exact he
  | succ fuel ih =>
      unfold forward
      split
      · exact he
      · rename_i event cursor next
        have passed := pass e event cursor next he
        dsimp only
        split
        · exact passed
        · exact ih passed

theorem dispatch_forwardAll (e : Engine) : e.forwardAll.dispatch = e.dispatch := by
  refine forward_keeps (P := fun e' => e'.dispatch = e.dispatch) ?_ false _ rfl
  intro e' event cursor _ same
  rw [emit_eq]
  exact same

theorem pump_forwardAll (e : Engine) : e.forwardAll.pump = e.pump := by
  refine forward_keeps (P := fun e' => e'.pump = e.pump) ?_ false _ rfl
  intro e' event cursor _ same
  rw [emit_eq]
  exact same

theorem subscribers_create (config : Config) (subs : List Subscriber) :
    (create config subs).subscribers = subs := by
  simp [subscribers, create, openLanes, Function.comp_def]

theorem subscribers_emit (e : Engine) (event : Event) :
    (e.emit event).subscribers = e.subscribers := by
  rw [emit_eq]
  simp only [subscribers, emitTo, List.map_map]
  apply List.map_congr_left
  intro l _
  exact l.offer_subscriber event

theorem subscribers_closeLanes (e : Engine) : e.closeLanes.subscribers = e.subscribers := by
  simp only [subscribers, closeLanes, List.map_map]
  exact List.map_congr_left fun _ _ => rfl

theorem subscribers_awaitWorkers (e : Engine) : e.awaitWorkers.subscribers = e.subscribers := by
  unfold awaitWorkers
  split <;> rfl

theorem subscribers_receive (e : Engine) : e.receive.subscribers = e.subscribers := by
  have step := e.receive_step
  generalize e.receive = after at step ⊢
  cases step with
  | nothing idle => rfl
  | passes event cursor receiving next goesOn => exact subscribers_emit _ event
  | ends event cursor receiving next last =>
      rw [subscribers_awaitWorkers, subscribers_closeLanes, subscribers_emit]
      rfl
  | awaits closing => exact subscribers_awaitWorkers e

theorem subscribers_workLane (e : Engine) (i : Nat) :
    (e.workLane i).subscribers = e.subscribers := by
  rcases e.workLane_cases i with ⟨-, same⟩ | ⟨l, there, lanes, -⟩
  · rw [same]
  · have own : (l.work e.now).1.subscriber = l.subscriber := (Lane.worked_work e.now l).subscriber
    have place : e.subscribers[i]? = some l.subscriber := by simp [subscribers, there]
    obtain ⟨inside, is⟩ := List.getElem?_eq_some_iff.mp place
    rw [subscribers, lanes, List.map_set, own, ← is]
    exact List.set_getElem_self inside

theorem subscribers_beginFlush (e : Engine) (s : Shutdown) :
    (e.beginFlush s).1.subscribers = e.subscribers := by
  unfold beginFlush
  split
  · rfl
  · rfl
  · rw [subscribers_closeLanes]
    refine forward_keeps (P := fun e' => e'.subscribers = e.subscribers) ?_ false _ rfl
    intro e' event cursor _ same
    exact (subscribers_emit _ event).trans same

theorem subscribers_entered (e : Engine) (token : Token) :
    (e.entered token).subscribers = e.subscribers := by
  unfold entered startPump
  split <;> rfl

theorem Feeds.subscribers (h : Feeds e e') : e'.subscribers = e.subscribers := by
  cases h with
  | publishes h phase => rw [Engine.subscribers, h.lanes, Engine.subscribers]
  | start token fresh => exact subscribers_entered e token
  | announceEnd stopped => rfl
  | beginFlush s stopped => exact subscribers_beginFlush e s
  | receive => exact subscribers_receive e
  | work i => exact subscribers_workLane e i

/-- The pump has read no more than what was published. -/
def Trails (e : Engine) : Prop := e.cursor ≤ e.bus.sent

theorem trails_create (config : Config) (subs : List Subscriber) : (create config subs).Trails :=
  Nat.le_refl _

theorem trails_pass {event : Event} {cursor : Nat}
    (next : e.bus.next? e.cursor = some (event, cursor)) : ({ e with cursor }.emit event).Trails := by
  rw [emit_eq]
  exact Nat.le_trans (Ring.le_sent_of_next? next) (sent_le_foldl _ _)

theorem trails_awaitWorkers (h : e.Trails) : e.awaitWorkers.Trails := by
  unfold awaitWorkers
  split <;> exact h

theorem Trails.feeds (h : e.Trails) (feeds : Feeds e e') : e'.Trails := by
  cases feeds with
  | publishes published phase =>
      rw [Trails, published.cursor, published.bus]
      exact Nat.le_trans h (sent_le_foldl _ _)
  | start token fresh =>
      unfold entered startPump
      split <;> exact h
  | announceEnd stopped => exact Nat.le_succ_of_le h
  | beginFlush s stopped =>
      unfold beginFlush
      split
      · exact h
      · exact h
      · exact forward_keeps (P := Trails) (fun e event cursor next _ => trails_pass next) false _ h
  | receive =>
      have step := e.receive_step
      generalize e.receive = after at step ⊢
      cases step with
      | nothing idle => exact h
      | passes event cursor receiving next goesOn => exact trails_pass next
      | ends event cursor receiving next last =>
          have closed : ({ e with cursor }.emit event).closeLanes.Trails := trails_pass next
          exact trails_awaitWorkers closed
      | awaits closing => exact trails_awaitWorkers h
  | work i =>
      rw [workLane_eq]
      exact Nat.le_trans h (sent_le_foldl _ _)

/-! ## 4. Until the engine has stopped -/

theorem phase_receive (e : Engine) : e.receive.phase = e.phase := (aside_receive e).phase

theorem pump_workLane (e : Engine) (i : Nat) : (e.workLane i).pump = e.pump := by
  rw [workLane_eq]

/-- An engine with subscribers: its events wait in the ring until it is started; from then on the
pump receives, and there is no end marker, until it has stopped. -/
structure Attended (e : Engine) : Prop where
  fresh : e.phase = .notStarted → e.pump = .absent ∧ e.dispatch = .buffered
  busy : e.phase = .running ∨ e.phase = .stopping → e.pump = .receiving ∧ e.dispatch = .pumping
  unmarked : e.phase ≠ .stopped → ∀ event ∈ e.bus.kept, event.kind ≠ .allStoppedWithin

theorem attended_create (config : Config) {subs : List Subscriber} (some : subs ≠ []) :
    (create config subs).Attended := by
  have waits : (create config subs).dispatch = .buffered := by
    cases subs with
    | nil => exact absurd rfl some
    | cons s rest => rfl
  refine ⟨fun _ => ⟨rfl, waits⟩, ?_, ?_⟩
  · intro busy
    rcases busy with busy | busy <;> cases busy
  · intro _ event mem
    exact absurd mem List.not_mem_nil

theorem attended_of_stopped (stopped : e.phase = .stopped) : e.Attended := by
  refine ⟨?_, ?_, fun still => absurd stopped still⟩
  · intro fresh
    rw [stopped] at fresh
    cases fresh
  · intro busy
    rw [stopped] at busy
    rcases busy with busy | busy <;> cases busy

/-- Before the engine has stopped, a receive passes on one event that is not the end marker. -/
theorem Attended.receive (h : e.Attended) : e.receive.Attended := by
  by_cases stopped : e.phase = .stopped
  · exact attended_of_stopped (e.phase_receive.trans stopped)
  have step := e.receive_step
  generalize e.receive = after at step ⊢
  cases step with
  | nothing idle => exact h
  | passes event cursor receiving next goesOn =>
      rw [emit_eq]
      refine ⟨h.fresh, h.busy, fun still => forall_kept_foldl ?_ (h.unmarked still)⟩
      intro report mem
      rw [kind_of_mem_emitTo mem]
      decide
  | ends event cursor receiving next last =>
      have kept : event ∈ e.bus.kept :=
        Ring.mem_kept_of_mem_unread (Ring.mem_unread_of_next? next)
      exact absurd last (h.unmarked stopped event kept)
  | awaits closing =>
      exfalso
      cases phase : e.phase with
      | notStarted => rw [(h.fresh phase).1] at closing; cases closing
      | running => rw [(h.busy (.inl phase)).1] at closing; cases closing
      | stopping => rw [(h.busy (.inr phase)).1] at closing; cases closing
      | stopped => exact stopped phase

theorem Attended.work (h : e.Attended) (i : Nat) : (e.workLane i).Attended := by
  have phase : (e.workLane i).phase = e.phase := (aside_workLane e i).phase
  rcases e.workLane_cases i with ⟨-, same⟩ | ⟨l, -, -, bus⟩
  · rw [same]
    exact h
  · constructor
    · rw [phase, workLane_eq]
      exact h.fresh
    · rw [phase, workLane_eq]
      exact h.busy
    · intro still
      rw [phase] at still
      rw [bus]
      refine forall_kept_foldl ?_ (h.unmarked still)
      intro report mem
      rw [((Lane.worked_work e.now l).reports report mem).1]
      decide

theorem Attended.publishes {events : List Event} (h : e.Attended) (published : Published e e' events)
    (phase : e'.phase = e.phase ∨ e.phase = .running ∧ e'.phase = .stopping ∨ e'.phase = .stopped) :
    e'.Attended := by
  have others := published.kind_ne (k := .allStoppedWithin) rfl
  rcases phase with phase | ⟨running, stopping⟩ | stopped
  · constructor
    · rw [phase, published.pump, published.dispatch]
      exact h.fresh
    · rw [phase, published.pump, published.dispatch]
      exact h.busy
    · intro still
      rw [phase] at still
      rw [published.bus]
      exact forall_kept_foldl others (h.unmarked still)
  · constructor
    · intro fresh
      rw [stopping] at fresh
      cases fresh
    · intro _
      rw [published.pump, published.dispatch]
      exact h.busy (.inl running)
    · intro still
      rw [published.bus]
      refine forall_kept_foldl others (h.unmarked ?_)
      rw [running]
      decide
  · exact attended_of_stopped stopped

theorem Attended.start (h : e.Attended) (token : Token) (fresh : e.phase = .notStarted) :
    (e.entered token).Attended := by
  have unmarked : ∀ event ∈ e.bus.kept, event.kind ≠ .allStoppedWithin := by
    apply h.unmarked
    rw [fresh]
    decide
  have waits := (h.fresh fresh).2
  unfold entered startPump
  simp only [waits]
  exact ⟨(fun fresh => nomatch fresh), fun _ => ⟨rfl, rfl⟩, fun _ => unmarked⟩

theorem Attended.feeds (h : e.Attended) (feeds : Feeds e e') : e'.Attended := by
  cases feeds with
  | publishes published phase => exact h.publishes published phase
  | start token fresh => exact h.start token fresh
  | announceEnd stopped => exact attended_of_stopped stopped
  | beginFlush s stopped => exact attended_of_stopped ((aside_beginFlush e s).phase.trans stopped)
  | receive => exact h.receive
  | work i => exact h.work i

/-! ## 5. Subscribers that panic over reports of panics and over the end marker at most -/

/-- The pump receives, or is still to be set up. -/
def Listens (e : Engine) : Prop := e.pump = .receiving ∨ e.phase = .notStarted

/-- As long as the pump listens, no report of a panic has been published, and no lane holds an event
over which its subscriber could panic. -/
structure Guarded (e : Engine) : Prop where
  tempered : ∀ s ∈ e.subscribers, ∀ k ∈ s.panicsOn, k.isTame = false
  fresh : e.phase = .notStarted → e.pump = .absent
  manned : e.pump = .receiving → e.dispatch ≠ .buffered
  unheard : e.Listens → ∀ event ∈ e.bus.kept, event.kind ≠ .subscriberPanicked
  tame : e.Listens → ∀ l ∈ e.lanes, ∀ event ∈ l.held, event.kind.isTame = true

theorem guarded_create (config : Config) {subs : List Subscriber}
    (tempered : ∀ s ∈ subs, ∀ k ∈ s.panicsOn, k.isTame = false) :
    (create config subs).Guarded := by
  refine ⟨?_, fun _ => rfl, (fun receiving => nomatch receiving), ?_, ?_⟩
  · rw [subscribers_create]
    exact tempered
  · exact fun _ event mem => absurd mem List.not_mem_nil
  · intro _ l mem event held
    obtain ⟨s, -, rfl⟩ := List.mem_map.mp mem
    exact absurd held List.not_mem_nil

/-- The workers are silent then. -/
theorem Guarded.silent (h : e.Guarded) (listens : e.Listens) {l : Lane} (mem : l ∈ e.lanes)
    (now : Instant) : (l.work now).2 = [] := by
  apply Lane.work_silent
  intro event held panics
  have tame := h.tame listens l mem event held
  have wild := h.tempered l.subscriber (List.mem_map_of_mem mem) event.kind panics
  rw [wild] at tame
  cases tame

/-- What is guarded stays guarded once the pump has ceased to listen. -/
theorem guarded_of_deaf (tempered : ∀ s ∈ e.subscribers, ∀ k ∈ s.panicsOn, k.isTame = false)
    (deaf : ¬e.Listens) : e.Guarded :=
  ⟨tempered, fun fresh => absurd (.inr fresh) deaf, fun receiving => absurd (.inl receiving) deaf,
    fun listens => absurd listens deaf, fun listens => absurd listens deaf⟩

theorem pump_awaitWorkers (e : Engine) : e.awaitWorkers.pump ≠ .receiving := by
  unfold awaitWorkers
  split <;> exact (fun receiving => nomatch receiving)

theorem Guarded.receive (h : e.Guarded) : e.receive.Guarded := by
  have tempered := h.tempered
  rw [← subscribers_receive e] at tempered
  have step := e.receive_step
  have phase := e.phase_receive
  generalize e.receive = after at step tempered phase ⊢
  have settles (busy : e.pump ≠ .absent) (deaf : after.pump ≠ .receiving) : after.Guarded := by
    apply guarded_of_deaf tempered
    rintro (receives | fresh)
    · exact deaf receives
    · exact busy (h.fresh (phase.symm.trans fresh))
  cases step with
  | nothing idle => exact h
  | passes event cursor receiving next goesOn =>
      have listens : e.Listens := .inl receiving
      have kept : event ∈ e.bus.kept :=
        Ring.mem_kept_of_mem_unread (Ring.mem_unread_of_next? next)
      have calm : event.kind.isTame = true := by
        have unheard := h.unheard listens event kept
        cases kind : event.kind <;> first | rfl | exact absurd kind unheard | exact absurd kind goesOn
      rw [emit_eq] at tempered ⊢
      refine ⟨tempered, h.fresh, h.manned, ?_, ?_⟩
      · intro _
        refine forall_kept_foldl ?_ (h.unheard listens)
        intro report mem
        rw [kind_of_mem_emitTo mem]
        decide
      · intro _ l mem ev held
        obtain ⟨old, memOld, rfl⟩ := mem_emitTo mem
        rcases Lane.held_offer held with rfl | held
        · exact calm
        · exact h.tame listens old memOld ev held
  | ends event cursor receiving next last =>
      exact settles (by rw [receiving]; decide) (pump_awaitWorkers _)
  | awaits closing => exact settles (by rw [closing]; decide) (pump_awaitWorkers _)

theorem Guarded.work (h : e.Guarded) (i : Nat) : (e.workLane i).Guarded := by
  have tempered := h.tempered
  rw [← subscribers_workLane e i] at tempered
  have phase : (e.workLane i).phase = e.phase := (aside_workLane e i).phase
  have pump := e.pump_workLane i
  rcases e.workLane_cases i with ⟨-, same⟩ | ⟨l, there, lanes, bus⟩
  · rw [same]
    exact h
  · have mem : l ∈ e.lanes := List.mem_of_getElem? there
    have still (listens : (e.workLane i).Listens) : e.Listens := by
      rw [Listens, pump, phase] at listens
      exact listens
    refine ⟨tempered, ?_, ?_, ?_, ?_⟩
    · rw [phase, pump]
      exact h.fresh
    · rw [pump, workLane_eq]
      exact h.manned
    · intro listens
      rw [bus, h.silent (still listens) mem]
      exact h.unheard (still listens)
    · intro listens
      rw [lanes]
      intro l' mem' event held
      rcases List.mem_or_eq_of_mem_set mem' with mem' | rfl
      · exact h.tame (still listens) l' mem' event held
      · exact h.tame (still listens) l mem event ((Lane.worked_work e.now l).held held)

theorem Guarded.beginFlush (h : e.Guarded) (s : Shutdown) (stopped : e.phase = .stopped) :
    (e.beginFlush s).1.Guarded := by
  have tempered := h.tempered
  rw [← subscribers_beginFlush e s] at tempered
  unfold Engine.beginFlush at tempered ⊢
  split
  · exact h
  · exact ⟨h.tempered, h.fresh, (fun _ idle => nomatch idle), h.unheard, h.tame⟩
  · rename_i buffered
    simp only [buffered] at tempered
    -- the pump was never set up, and never will be
    have pump : ({ e with dispatch := .idle }.forwardAll).pump = e.pump := pump_forwardAll _
    have phase : ({ e with dispatch := .idle }.forwardAll).phase = e.phase :=
      (aside_forward false _ _).phase
    apply guarded_of_deaf tempered
    intro listens
    rcases listens with receives | fresh
    · exact h.manned (pump.symm.trans receives) buffered
    · have absurdPhase := stopped.symm.trans (phase.symm.trans fresh)
      cases absurdPhase

theorem Guarded.publishes {events : List Event} (h : e.Guarded) (published : Published e e' events)
    (phase : e'.phase = e.phase ∨ e.phase = .running ∧ e'.phase = .stopping ∨ e'.phase = .stopped) :
    e'.Guarded := by
  have unstarted (fresh : e'.phase = .notStarted) : e.phase = .notStarted := by
    rcases phase with phase | ⟨-, stopping⟩ | stopped
    · exact phase.symm.trans fresh
    · rw [stopping] at fresh
      cases fresh
    · rw [stopped] at fresh
      cases fresh
  have still (listens : e'.Listens) : e.Listens :=
    listens.imp (fun receiving => published.pump.symm.trans receiving) unstarted
  constructor
  · rw [Engine.subscribers, published.lanes]
    exact h.tempered
  · intro fresh
    rw [published.pump]
    exact h.fresh (unstarted fresh)
  · rw [published.pump, published.dispatch]
    exact h.manned
  · intro listens
    rw [published.bus]
    exact forall_kept_foldl (published.kind_ne rfl) (h.unheard (still listens))
  · intro listens
    rw [published.lanes]
    exact h.tame (still listens)

theorem Guarded.start (h : e.Guarded) (token : Token) (fresh : e.phase = .notStarted) :
    (e.entered token).Guarded := by
  have listens : e.Listens := .inr fresh
  unfold entered startPump
  split
  · exact ⟨h.tempered, (fun fresh => nomatch fresh), (fun _ buffered => nomatch buffered),
      fun _ => h.unheard listens, fun _ => h.tame listens⟩
  · rename_i idle
    refine ⟨h.tempered, (fun fresh => nomatch fresh), ?_,
      fun _ => h.unheard listens, fun _ => h.tame listens⟩
    intro _ buffered
    cases idle.symm.trans buffered
  · rename_i pumping
    refine ⟨h.tempered, (fun fresh => nomatch fresh), ?_,
      fun _ => h.unheard listens, fun _ => h.tame listens⟩
    intro _ buffered
    cases pumping.symm.trans buffered

theorem Guarded.announceEnd (h : e.Guarded) : (e.publish { kind := .allStoppedWithin }).Guarded := by
  refine ⟨h.tempered, h.fresh, h.manned, ?_, h.tame⟩
  intro listens event mem
  rcases Ring.mem_kept_push mem with rfl | mem
  · decide
  · exact h.unheard listens event mem

theorem Guarded.feeds (h : e.Guarded) (feeds : Feeds e e') : e'.Guarded := by
  cases feeds with
  | publishes published phase => exact h.publishes published phase
  | start token fresh => exact h.start token fresh
  | announceEnd stopped => exact h.announceEnd
  | beginFlush s stopped => exact h.beginFlush s stopped
  | receive => exact h.receive
  | work i => exact h.work i

/-- What is kept whatever a change is for the lanes, every move keeps. -/
theorem feeds_perform {P : Engine → Prop} (feeds : ∀ e e', P e → Feeds e e' → P e') {m : Move}
    (allowed : e.allows m = true) (he : P e) : P (e.perform m) :=
  (changes_perform allowed (Licence.suits_free e m)).keeps
    (fun e e' change h => feeds e e' h change.feeds) he

/-- Every history keeps it. -/
theorem feeds_after {P : Engine → Prop} (feeds : ∀ e e', P e → Feeds e e' → P e')
    {moves : List Move} (admitted : e.admits moves = true) (he : P e) : P (e.after moves) :=
  invariant_after (fun _ _ allowed h => feeds_perform feeds allowed h) admitted he

/-- An engine that is stopping or has stopped does not run again. -/
theorem Feeds.isClosing (feeds : Feeds e e') (closing : e.isClosing = true) :
    e'.isClosing = true := by
  have same {e' : Engine} (phase : e'.phase = e.phase) : e'.isClosing = true := by
    rw [Engine.isClosing, phase]
    exact closing
  cases feeds with
  | publishes published phase =>
      rcases phase with phase | ⟨running, -⟩ | stopped
      · exact same phase
      · simp [Engine.isClosing, running] at closing
      · simp [Engine.isClosing, stopped]
  | start token fresh => simp [Engine.isClosing, fresh] at closing
  | announceEnd stopped => exact same rfl
  | beginFlush s stopped => exact same (aside_beginFlush e s).phase
  | receive => exact same (phase_receive e)
  | work i => exact same (aside_workLane e i).phase

theorem attended_after {config : Config} {subs : List Subscriber} (some : subs ≠ [])
    {moves : List Move} (admitted : (create config subs).admits moves = true) :
    ((create config subs).after moves).Attended :=
  feeds_after (fun _ _ h => Attended.feeds h) admitted (attended_create config some)

theorem subscribers_after {moves : List Move} (admitted : e.admits moves = true) :
    (e.after moves).subscribers = e.subscribers :=
  feeds_after (P := fun e' => e'.subscribers = e.subscribers)
    (fun _ _ same feeds => feeds.subscribers.trans same) admitted rfl

end Engine

end TaskEngine
