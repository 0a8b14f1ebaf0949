/-
  TaskEngine/Proofs/Tracking.lean
  ===============================
  **What becomes of the events that are published.**

  As long as somebody passes events on (`Engine.Serves`), an event that was published has been passed
  on or waits in the ring, and an event that was passed on has been accepted by every lane, all in
  the order in which they were published (`Engine.Tracked`): unless one is lost.  Events are lost when
  a lane refuses them, when they are written over before they are read, or when a worker is lost with
  its queue.  None of this is ever undone, so it is enough to know of one state that nothing is lost
  in it (`Engine.Lossless`) to know it of all states before (`lossless_of_after`).
-/
import TaskEngine.Proofs.Publishing

namespace TaskEngine

/-! ## 1. Lists of events with an end marker -/

/-- The last event is an end marker, and the only one. -/
def EndsMarked (events : List Event) : Prop :=
  ∃ rest marker, events = rest ++ [marker] ∧ marker.kind = .allStoppedWithin ∧
    ∀ event ∈ rest, event.kind ≠ .allStoppedWithin

theorem EndsMarked.eq_of_prefix {first second : List Event} (h : EndsMarked first)
    (h' : EndsMarked second) (below : first <+: second) : first = second := by
  obtain ⟨rest, marker, rfl, kind, -⟩ := h
  obtain ⟨rest', marker', rfl, -, unmarked⟩ := h'
  rcases List.prefix_concat_iff.mp below with same | inside
  · exact same
  · have mem : marker ∈ rest' := inside.subset (List.mem_append_right _ (List.mem_singleton_self _))
    exact absurd kind (unmarked marker mem)

theorem EndsMarked.eq_of_prefixes {first second all : List Event} (h : EndsMarked first)
    (h' : EndsMarked second) (below : first <+: all) (below' : second <+: all) : first = second := by
  rcases List.prefix_or_prefix_of_prefix below below' with inside | inside
  · exact h.eq_of_prefix h' inside
  · exact (h'.eq_of_prefix h inside).symm

/-- What has no end marker is shorter. -/
theorem EndsMarked.length_lt {marked unmarked all : List Event} (h : EndsMarked marked)
    (none : ∀ event ∈ unmarked, event.kind ≠ .allStoppedWithin) (below : marked <+: all)
    (below' : unmarked <+: all) : unmarked.length < marked.length := by
  by_contra longer
  have inside := List.prefix_of_prefix_length_le below below' (Nat.le_of_not_lt longer)
  obtain ⟨rest, marker, rfl, kind, -⟩ := h
  exact none marker (inside.subset (List.mem_append_right _ (List.mem_singleton_self _))) kind

namespace Engine

variable {e e' : Engine} {event : Event}

/-! ## 2. Passing events on -/

/-- Somebody passes on what waits in the ring, or will. -/
def Serves (e : Engine) : Prop := e.dispatch = .buffered ∨ e.pump = .receiving

/-- The next event was read and passed on. -/
structure Passed (e : Engine) (event : Event) (e' : Engine) : Prop where
  cursor : e'.cursor = max e.cursor e.bus.oldest + 1
  unread : e.bus.unread e.cursor = event :: e.bus.unread e'.cursor
  lanes : e'.lanes = e.lanes.map (·.offer event)
  bus : e'.bus = (emitTo e.lanes event).2.foldl Ring.push e.bus
  dispatch : e'.dispatch = e.dispatch
  pump : e'.pump = e.pump
  forwarded : e'.forwarded = event :: e.forwarded
  published : e'.published = e.published ++ (emitTo e.lanes event).2

theorem passed_emit {cursor : Nat} (next : e.bus.next? e.cursor = some (event, cursor)) :
    Passed e event ({ e with cursor }.emit event) := by
  refine ⟨?_, ?_, ?_, ?_, ?_, ?_, forwarded_emit _ event, published_emit _ event⟩
  · rw [emit_eq]
    exact Ring.cursor_of_next? next
  · rw [emit_eq]
    exact Ring.unread_of_next? next
  · rw [emit_eq]
    rfl
  all_goals rw [emit_eq]

/-- What the pump has read, and when the lanes are closed. -/
structure Paced (e : Engine) : Prop where
  passed : e.forwarded.length ≤ e.cursor
  fresh : e.dispatch = .buffered → e.pump = .absent ∧ e.forwarded = []
  serves : ∀ l ∈ e.lanes, l.isOpen = true ↔ e.Serves
  goesOn : e.pump = .receiving → ∀ event ∈ e.forwarded, event.kind ≠ .allStoppedWithin
  last : e.pump = .closing ∨ e.pump = .ended → EndsMarked e.forwarded.reverse
  ended : e.pump = .ended → allGone e.lanes = true

theorem paced_create (config : Config) (subs : List Subscriber) : (create config subs).Paced := by
  refine ⟨Nat.le_refl _, fun _ => ⟨rfl, rfl⟩, ?_, (fun receiving => nomatch receiving), ?_,
    (fun ended => nomatch ended)⟩
  · intro l mem
    obtain ⟨s, there, rfl⟩ := List.mem_map.mp mem
    have waits : (create config subs).dispatch = .buffered := by
      cases subs with
      | nil => cases there
      | cons s rest => rfl
    exact ⟨fun _ => .inl waits, fun _ => rfl⟩
  · rintro (closing | ended)
    · cases closing
    · cases ended

theorem Paced.congr (h : e.Paced) (cursor : e'.cursor = e.cursor) (lanes : e'.lanes = e.lanes)
    (dispatch : e'.dispatch = e.dispatch) (pump : e'.pump = e.pump)
    (forwarded : e'.forwarded = e.forwarded) : e'.Paced := by
  constructor
  · rw [forwarded, cursor]
    exact h.passed
  · rw [dispatch, pump, forwarded]
    exact h.fresh
  · rw [Serves, lanes, dispatch, pump]
    exact h.serves
  · rw [pump, forwarded]
    exact h.goesOn
  · rw [pump, forwarded]
    exact h.last
  · rw [pump, lanes]
    exact h.ended

/-- A pump that receives has taken over what was waiting. -/
theorem Paced.not_buffered (h : e.Paced) (there : e.pump ≠ .absent) : e.dispatch ≠ .buffered :=
  fun buffered => there (h.fresh buffered).1

theorem Paced.length_le (h : e.Paced) (passed : Passed e event e') :
    e'.forwarded.length ≤ e'.cursor := by
  have behind := h.passed
  rw [passed.forwarded, passed.cursor, List.length_cons]
  omega

theorem Paced.pass (h : e.Paced) (passed : Passed e event e') (receiving : e.pump = .receiving)
    (goesOn : event.kind ≠ .allStoppedWithin) : e'.Paced := by
  have pump : e'.pump = .receiving := passed.pump.trans receiving
  refine ⟨h.length_le passed, ?_, ?_, ?_, ?_, ?_⟩
  · intro buffered
    rw [passed.dispatch] at buffered
    exact absurd buffered (h.not_buffered (by rw [receiving]; decide))
  · rw [passed.lanes]
    intro l mem
    obtain ⟨old, memOld, rfl⟩ := List.mem_map.mp mem
    rw [Lane.offer_isOpen, Serves, passed.dispatch, passed.pump]
    exact h.serves old memOld
  · rw [passed.forwarded]
    intro _ other mem
    rcases List.mem_cons.mp mem with rfl | mem
    · exact goesOn
    · exact h.goesOn receiving other mem
  · rw [pump]
    rintro (closing | ended)
    · cases closing
    · cases ended
  · rw [pump]
    exact (fun ended => nomatch ended)

/-- The pump waits for the workers once the lanes are closed after the end marker. -/
theorem paced_awaitWorkers (passed : e.forwarded.length ≤ e.cursor) (taken : e.dispatch ≠ .buffered)
    (closed : ∀ l ∈ e.lanes, l.isOpen = false) (last : EndsMarked e.forwarded.reverse) :
    e.awaitWorkers.Paced := by
  have settled {pump : Pump} (away : pump ≠ .receiving) (ended : pump = .ended → allGone e.lanes = true) :
      { e with pump }.Paced := by
    refine ⟨passed, fun buffered => absurd buffered taken, ?_, fun receiving => absurd receiving away,
      fun _ => last, ended⟩
    intro l mem
    rw [closed l mem]
    refine ⟨(fun isOpen => nomatch isOpen), ?_⟩
    rintro (buffered | receiving)
    · exact absurd buffered taken
    · exact absurd receiving away
  unfold awaitWorkers
  split
  · exact settled (by decide) fun _ => ‹_›
  · exact settled (by decide) (fun ended => nomatch ended)

theorem Paced.receive (h : e.Paced) : e.receive.Paced := by
  have step := e.receive_step
  generalize e.receive = after at step ⊢
  cases step with
  | nothing idle => exact h
  | passes event cursor receiving next goesOn => exact h.pass (passed_emit next) receiving goesOn
  | ends event cursor receiving next last =>
      have passed := passed_emit next
      have forwarded : ({ e with cursor }.emit event).closeLanes.forwarded = event :: e.forwarded :=
        passed.forwarded
      have behind := h.length_le passed
      apply paced_awaitWorkers
      · exact behind
      · show ({ e with cursor }.emit event).dispatch ≠ .buffered
        rw [passed.dispatch]
        exact h.not_buffered (by rw [receiving]; decide)
      · intro l mem
        obtain ⟨open', -, rfl⟩ := List.mem_map.mp mem
        rfl
      · refine ⟨e.forwarded.reverse, event, by rw [forwarded, List.reverse_cons], last, ?_⟩
        intro other mem
        exact h.goesOn receiving other (List.mem_reverse.mp mem)
  | awaits closing =>
      have there : e.pump ≠ .absent := by rw [closing]; decide
      refine paced_awaitWorkers h.passed (h.not_buffered there) ?_ (h.last (.inl closing))
      intro l mem
      apply Bool.eq_false_iff.mpr
      intro isOpen
      rcases (h.serves l mem).mp isOpen with buffered | receiving
      · exact h.not_buffered there buffered
      · cases closing.symm.trans receiving

theorem Paced.work (h : e.Paced) (i : Nat) : (e.workLane i).Paced := by
  have pump := e.pump_workLane i
  have forwarded := forwarded_workLane e i
  have dispatch : (e.workLane i).dispatch = e.dispatch := by rw [workLane_eq]
  have cursor : (e.workLane i).cursor = e.cursor := by rw [workLane_eq]
  rcases e.workLane_cases i with ⟨-, same⟩ | ⟨l, there, lanes, -⟩
  · rw [same]
    exact h
  have mem : l ∈ e.lanes := List.mem_of_getElem? there
  refine ⟨?_, ?_, ?_, ?_, ?_, ?_⟩
  · rw [forwarded, cursor]
    exact h.passed
  · rw [dispatch, pump, forwarded]
    exact h.fresh
  · rw [Serves, lanes, dispatch, pump]
    intro l' mem'
    rcases List.mem_or_eq_of_mem_set mem' with mem' | rfl
    · exact h.serves l' mem'
    · rw [(Lane.worked_work e.now l).isOpen]
      exact h.serves l mem
  · rw [pump, forwarded]
    exact h.goesOn
  · rw [pump, forwarded]
    exact h.last
  · rw [pump, lanes]
    intro ended
    have gone := List.all_eq_true.mp (h.ended ended)
    apply List.all_eq_true.mpr
    intro l' mem'
    rcases List.mem_or_eq_of_mem_set mem' with mem' | rfl
    · exact gone l' mem'
    · exact Lane.isGone_work (gone l mem)

/-- Nobody passes anything on once the lanes were fed without a pump. -/
theorem not_serves_flushed (absent : e.pump = .absent) :
    ¬({ e with dispatch := .idle }.forwardAll.closeLanes).Serves := by
  rintro (buffered | receiving)
  · cases (dispatch_forwardAll { e with dispatch := .idle }).symm.trans buffered
  · have pump : e.pump = .receiving :=
      (pump_forwardAll { e with dispatch := .idle }).symm.trans receiving
    cases absent.symm.trans pump

theorem Paced.beginFlush (h : e.Paced) (s : Shutdown) : (e.beginFlush s).1.Paced := by
  unfold Engine.beginFlush
  split
  · exact h
  · rename_i pumping
    refine ⟨h.passed, (fun buffered => nomatch buffered), ?_, h.goesOn, h.last, h.ended⟩
    intro l mem
    rw [h.serves l mem, Serves, Serves, pumping]
    simp
  · rename_i buffered
    have absent := (h.fresh buffered).1
    have pump : { e with dispatch := .idle }.forwardAll.closeLanes.pump = .absent :=
      (pump_forwardAll _).trans absent
    refine ⟨?_, ?_, ?_, ?_, ?_, ?_⟩
    · refine forward_keeps (P := fun e => e.forwarded.length ≤ e.cursor) ?_ false _ h.passed
      intro e event cursor next behind
      rw [(passed_emit next).forwarded, (passed_emit next).cursor, List.length_cons]
      omega
    · intro waits
      exact absurd (.inl waits) (not_serves_flushed absent)
    · intro l mem
      obtain ⟨old, -, rfl⟩ := List.mem_map.mp mem
      exact ⟨(fun isOpen => nomatch isOpen), fun serves => absurd serves (not_serves_flushed absent)⟩
    · intro receiving
      cases pump.symm.trans receiving
    · rintro (closing | ended)
      · cases pump.symm.trans closing
      · cases pump.symm.trans ended
    · intro ended
      cases pump.symm.trans ended

theorem Paced.start (h : e.Paced) (token : Token) : (e.entered token).Paced := by
  unfold entered startPump
  split
  · rename_i buffered
    have waits : e.dispatch = .buffered := buffered
    obtain ⟨-, none⟩ := h.fresh waits
    refine ⟨h.passed, (fun buffered => nomatch buffered), ?_, ?_, ?_, (fun ended => nomatch ended)⟩
    · intro l mem
      exact ⟨fun _ => .inr rfl, fun _ => (h.serves l mem).mpr (.inl waits)⟩
    · intro _ event mem
      have mem' : event ∈ e.forwarded := mem
      rw [none] at mem'
      cases mem'
    · rintro (closing | ended)
      · cases closing
      · cases ended
  · exact h.congr rfl rfl rfl rfl rfl
  · exact h.congr rfl rfl rfl rfl rfl

theorem Paced.feeds (h : e.Paced) (feeds : Feeds e e') : e'.Paced := by
  cases feeds with
  | publishes published phase =>
      exact h.congr published.cursor published.lanes published.dispatch published.pump
        published.forwarded
  | start token fresh => exact h.start token
  | announceEnd stopped => exact h.congr rfl rfl rfl rfl rfl
  | beginFlush s stopped => exact h.beginFlush s
  | receive => exact h.receive
  | work i => exact h.work i

/-! ## 3. Nothing is lost -/

/-- No lane refused an event, the pump missed none of those that it was to read so far, and no worker
was lost with something in its queue. -/
structure Unlost (e : Engine) : Prop where
  heard : ∀ event ∈ e.published, event.kind ≠ .subscriberOverflow
  read : e.cursor = e.forwarded.length
  given : ∀ l ∈ e.lanes, l.isGone = true → l.given = l.accepted.reverse

/-- Besides, nothing that is still to be read was written over: the ring and the queues were large
enough, and no event was lost. -/
structure Lossless (e : Engine) : Prop extends Unlost e where
  kept : e.Serves → e.bus.oldest ≤ e.cursor

theorem Unlost.of_congr (h : e'.Unlost) (published : e.published <+: e'.published)
    (cursor : e'.cursor = e.cursor) (lanes : e'.lanes = e.lanes)
    (forwarded : e'.forwarded = e.forwarded) : e.Unlost := by
  refine ⟨fun event mem => h.heard event (published.subset mem), ?_, ?_⟩
  · rw [← cursor, ← forwarded]
    exact h.read
  · rw [← lanes]
    exact h.given

/-- A lane whose worker is gone stays as it is. -/
theorem Unlost.of_passed (h : e'.Unlost) (passed : Passed e event e')
    (behind : e.forwarded.length ≤ e.cursor) : e.Unlost ∧ e.bus.oldest ≤ e.cursor := by
  have read := h.read
  rw [passed.cursor, passed.forwarded, List.length_cons] at read
  refine ⟨⟨?_, by omega, ?_⟩, by omega⟩
  · intro other mem
    apply h.heard other
    rw [passed.published]
    exact List.mem_append_left _ mem
  · intro l mem gone
    apply h.given l _ gone
    rw [passed.lanes]
    exact List.mem_map.mpr ⟨l, mem, Lane.offer_of_isGone gone event⟩

theorem unlost_of_closeLanes (h : e.closeLanes.Unlost) : e.Unlost :=
  ⟨h.heard, h.read, fun l mem gone => h.given l.close (List.mem_map_of_mem mem) gone⟩

theorem unlost_of_awaitWorkers (h : e.awaitWorkers.Unlost) : e.Unlost := by
  unfold awaitWorkers at h
  split at h <;> exact ⟨h.heard, h.read, h.given⟩

theorem unlost_of_workLane {i : Nat} (h : (e.workLane i).Unlost) : e.Unlost := by
  refine ⟨?_, ?_, ?_⟩
  · intro event mem
    apply h.heard event
    rw [published_workLane]
    exact List.mem_append_left _ mem
  · have read := h.read
    rw [forwarded_workLane, workLane_eq] at read
    exact read
  · intro l mem gone
    refine h.given l ?_ gone
    rcases e.workLane_cases i with ⟨-, same⟩ | ⟨worked, there, lanes, -⟩
    · rw [same]
      exact mem
    · obtain ⟨j, found⟩ := List.mem_iff_getElem?.mp mem
      rw [lanes]
      by_cases own : i = j
      · subst own
        obtain rfl : worked = l := Option.some.inj (there.symm.trans found)
        rw [Lane.work_of_isGone e.now gone]
        have inside : i < e.lanes.length := (List.getElem?_eq_some_iff.mp there).1
        exact List.mem_of_getElem? (List.getElem?_set_self inside)
      · exact List.mem_of_getElem? ((List.getElem?_set_ne own).trans found)

theorem published_forward (untilEnd : Bool) (fuel : Nat) (e : Engine) :
    e.published <+: (e.forward untilEnd fuel).1.published := by
  refine forward_keeps (P := fun e' => e.published <+: e'.published) ?_ untilEnd fuel
    (List.prefix_refl _)
  intro e' event cursor next before
  rw [(passed_emit next).published]
  exact before.trans (List.prefix_append _ _)

/-- If nothing was lost when events were passed on, then nothing was before, nor had anything that was
still to be read been written over. -/
theorem unlost_of_forward {untilEnd : Bool} {fuel : Nat} (h : (e.forward untilEnd fuel).1.Unlost)
    (behind : e.forwarded.length ≤ e.cursor) : e.Unlost := by
  induction fuel generalizing e with
  | zero => exact h
  | succ fuel ih =>
      unfold forward at h
      split at h
      · exact h
      · rename_i event cursor next
        have passed := passed_emit next
        dsimp only at h
        split at h
        · exact (h.of_passed passed behind).1
        · refine ((ih h ?_).of_passed passed behind).1
          rw [passed.forwarded, passed.cursor, List.length_cons]
          omega

theorem kept_of_forwardAll (h : e.forwardAll.Unlost) (behind : e.forwarded.length ≤ e.cursor) :
    e.bus.oldest ≤ e.cursor := by
  cases next : e.bus.next? e.cursor with
  | none => exact Ring.oldest_le_of_next?_eq_none next
  | some found =>
      obtain ⟨event, cursor⟩ := found
      have passed := passed_emit next
      have some : 0 < e.forwardBound := by
        have left : e.bus.backlog e.cursor ≠ 0 := by
          intro none
          rw [(e.bus.next?_eq_none_iff e.cursor).mpr none] at next
          cases next
        exact Nat.mul_pos (Nat.pos_of_ne_zero left) (Nat.succ_pos _)
      obtain ⟨fuel, bound⟩ := Nat.exists_eq_succ_of_ne_zero (Nat.ne_of_gt some)
      have first : e.forwardAll = (({ e with cursor }.emit event).forward false fuel).1 := by
        rw [forwardAll, bound, forward, next]
        rfl
      rw [first] at h
      refine ((unlost_of_forward h ?_).of_passed passed behind).2
      rw [passed.forwarded, passed.cursor, List.length_cons]
      omega

/-- Events were written to the ring; the same is passed on to the same lanes. -/
structure Appended (e e' : Engine) (events : List Event) : Prop where
  bus : e'.bus = events.foldl Ring.push e.bus
  cursor : e'.cursor = e.cursor
  lanes : e'.lanes = e.lanes
  serves : e'.Serves ↔ e.Serves
  forwarded : e'.forwarded = e.forwarded
  published : e'.published = e.published ++ events

theorem Published.appended {events : List Event} (h : Published e e' events) :
    Appended e e' events := by
  refine ⟨h.bus, h.cursor, h.lanes, ?_, h.forwarded, h.published⟩
  rw [Serves, Serves, h.dispatch, h.pump]

theorem appended_publish (e : Engine) (event : Event) : Appended e (e.publish event) [event] :=
  ⟨rfl, rfl, rfl, Iff.rfl, rfl, published_of_announce e event none⟩

/-- Once it is started, the pump passes on what was waiting before. -/
theorem appended_entered (e : Engine) (token : Token) : Appended e (e.entered token) [] := by
  have published (e' : Engine) (same : e'.published = e.published) :
      e'.published = e.published ++ [] := by
    rw [same, List.append_nil]
  unfold entered startPump
  split
  · rename_i buffered
    exact ⟨rfl, rfl, rfl, ⟨fun _ => .inl buffered, fun _ => .inr rfl⟩, rfl, published _ rfl⟩
  · exact ⟨rfl, rfl, rfl, Iff.rfl, rfl, published _ rfl⟩
  · exact ⟨rfl, rfl, rfl, Iff.rfl, rfl, published _ rfl⟩

theorem Lossless.of_appended {events : List Event} (h : e'.Lossless)
    (appended : Appended e e' events) : e.Lossless := by
  refine ⟨h.toUnlost.of_congr ?_ appended.cursor appended.lanes appended.forwarded, ?_⟩
  · rw [appended.published]
    exact List.prefix_append _ _
  · intro serves
    have kept := h.kept (appended.serves.mpr serves)
    rw [appended.bus, appended.cursor] at kept
    exact Nat.le_trans (oldest_le_foldl events e.bus) kept

theorem Lossless.of_beginFlush {s : Shutdown} (h : (e.beginFlush s).1.Lossless) (paced : e.Paced) :
    e.Lossless := by
  unfold beginFlush at h
  split at h
  · exact h
  · rename_i pumping
    refine ⟨⟨h.heard, h.read, h.given⟩, ?_⟩
    rintro (buffered | receiving)
    · cases pumping.symm.trans buffered
    · exact h.kept (.inr receiving)
  · have forwarded := unlost_of_closeLanes h.toUnlost
    have before := unlost_of_forward forwarded paced.passed
    have kept := kept_of_forwardAll (e := { e with dispatch := .idle }) forwarded paced.passed
    exact ⟨⟨before.heard, before.read, before.given⟩, fun _ => kept⟩

theorem Lossless.of_receive (h : e.receive.Lossless) (paced : e.Paced) : e.Lossless := by
  have step := e.receive_step
  generalize e.receive = after at step h
  cases step with
  | nothing idle => exact h
  | passes event cursor receiving next goesOn =>
      obtain ⟨unlost, kept⟩ := h.toUnlost.of_passed (passed_emit next) paced.passed
      exact ⟨unlost, fun _ => kept⟩
  | ends event cursor receiving next last =>
      have passed := unlost_of_closeLanes (unlost_of_awaitWorkers h.toUnlost)
      obtain ⟨unlost, kept⟩ := passed.of_passed (passed_emit next) paced.passed
      exact ⟨unlost, fun _ => kept⟩
  | awaits closing =>
      refine ⟨unlost_of_awaitWorkers h.toUnlost, ?_⟩
      rintro (buffered | receiving)
      · exact absurd buffered (paced.not_buffered (by rw [closing]; decide))
      · cases closing.symm.trans receiving

theorem serves_workLane (e : Engine) (i : Nat) : (e.workLane i).Serves ↔ e.Serves := by
  rw [workLane_eq]
  exact Iff.rfl

theorem Lossless.of_workLane {i : Nat} (h : (e.workLane i).Lossless) : e.Lossless := by
  refine ⟨unlost_of_workLane h.toUnlost, fun serves => ?_⟩
  have kept := h.kept ((serves_workLane e i).mpr serves)
  rw [workLane_eq] at kept
  exact Nat.le_trans (oldest_le_foldl _ e.bus) kept

/-- What is lost stays lost. -/
theorem Lossless.of_feeds (h : e'.Lossless) (paced : e.Paced) (feeds : Feeds e e') : e.Lossless := by
  cases feeds with
  | publishes published phase => exact h.of_appended published.appended
  | start token fresh => exact h.of_appended (appended_entered e token)
  | announceEnd stopped => exact h.of_appended (appended_publish e _)
  | beginFlush s stopped => exact h.of_beginFlush paced
  | receive => exact h.of_receive paced
  | work i => exact h.of_workLane

/-! ## 4. Nothing overtakes -/

/-- Every lane has accepted what was passed on, and keeps it in order. -/
def Fills (e : Engine) : Prop := ∀ l ∈ e.lanes, l.Steady ∧ l.accepted = e.forwarded

/-- What was passed on and what waits in the ring is what was published. -/
def InLine (e : Engine) : Prop := e.forwarded.reverse ++ e.bus.unread e.cursor = e.published

/-- The lanes have accepted what was passed on, that is the first part of what was published, and the
other part waits in the ring as long as somebody passes it on. -/
structure Tracked (e : Engine) : Prop where
  fills : e.Fills
  order : e.forwarded.reverse <+: e.published
  line : e.Serves → e.InLine

theorem tracked_create (config : Config) (subs : List Subscriber) :
    (create config subs).Tracked := by
  refine ⟨?_, List.prefix_refl _, fun _ => ?_⟩
  · intro l mem
    obtain ⟨s, -, rfl⟩ := List.mem_map.mp mem
    exact ⟨Lane.steady_fresh s, rfl⟩
  · have nothing : (create config subs).bus.unread 0 = [] := by
      simp [Ring.unread, create, Ring.ofCapacity]
    exact nothing

/-- An event that no lane refuses is accepted by all of them. -/
theorem Passed.tracks (passed : Passed e event e')
    (heard : ∀ event ∈ e'.published, event.kind ≠ .subscriberOverflow) (fills : e.Fills)
    (line : e.InLine) : e'.Fills ∧ e'.InLine ∧ (∀ l ∈ e'.lanes, l.queue ≠ []) ∧ e'.bus = e.bus := by
  have silent : (emitTo e.lanes event).2 = [] := by
    apply List.eq_nil_iff_forall_not_mem.mpr
    intro report mem
    refine heard report ?_ (kind_of_mem_emitTo mem)
    rw [passed.published]
    exact List.mem_append_right _ mem
  have bus := passed.bus
  have published := passed.published
  rw [silent, List.foldl_nil] at bus
  rw [silent, List.append_nil] at published
  have kind : event.kind ≠ .subscriberOverflow := by
    apply heard event
    rw [published, ← line, passed.unread]
    exact List.mem_append_right _ List.mem_cons_self
  have accepts {l : Lane} (mem : l ∈ e.lanes) :
      (l.offer event).accepted = event :: l.accepted ∧ (l.offer event).queue ≠ [] :=
    Lane.accepted_offer (List.filterMap_eq_nil_iff.mp silent l mem) kind
  refine ⟨?_, ?_, ?_, bus⟩
  · rw [Fills, passed.lanes, passed.forwarded]
    intro l mem
    obtain ⟨old, memOld, rfl⟩ := List.mem_map.mp mem
    obtain ⟨steady, accepted⟩ := fills old memOld
    exact ⟨steady.offer event, by rw [(accepts memOld).1, accepted]⟩
  · rw [InLine, bus, published, passed.forwarded, List.reverse_cons, List.append_assoc,
      List.singleton_append, ← passed.unread]
    exact line
  · rw [passed.lanes]
    intro l mem
    obtain ⟨old, memOld, rfl⟩ := List.mem_map.mp mem
    exact (accepts memOld).2

/-- Passing on as many events as wait leaves none. -/
theorem forward_tracks {fuel : Nat}
    (heard : ∀ event ∈ (e.forward false fuel).1.published, event.kind ≠ .subscriberOverflow)
    (fills : e.Fills) (line : e.InLine) (enough : (e.bus.unread e.cursor).length ≤ fuel) :
    (e.forward false fuel).1.Fills ∧
      (e.forward false fuel).1.forwarded.reverse = (e.forward false fuel).1.published := by
  induction fuel generalizing e with
  | zero =>
      have none := List.length_eq_zero_iff.mp (Nat.le_zero.mp enough)
      refine ⟨fills, ?_⟩
      rw [InLine, none, List.append_nil] at line
      exact line
  | succ fuel ih =>
      unfold forward at heard ⊢
      split
      · rename_i next
        refine ⟨fills, ?_⟩
        rw [InLine, Ring.unread_eq_nil_of_next? next, List.append_nil] at line
        exact line
      · rename_i event cursor next
        have passed := passed_emit next
        simp only [next, Bool.false_and, Bool.false_eq_true, if_false] at heard ⊢
        obtain ⟨fills', line', -, bus⟩ := passed.tracks
          (fun event mem => heard event ((published_forward false fuel _).subset mem)) fills line
        refine ih heard fills' line' ?_
        rw [passed.unread, List.length_cons] at enough
        rw [bus]
        exact Nat.le_of_succ_le_succ enough

/-- An engine that is shut down before it was started hands everything to the lanes, and closes them
with something in their queues, if there was anything. -/
theorem Tracked.flush (h : e.Tracked) (paced : e.Paced) (buffered : e.dispatch = .buffered)
    (unlost : ({ e with dispatch := .idle }.forwardAll).Unlost) :
    ({ e with dispatch := .idle }.forwardAll).closeLanes.Fills ∧
      ({ e with dispatch := .idle }.forwardAll).closeLanes.forwarded.reverse =
        ({ e with dispatch := .idle }.forwardAll).closeLanes.published := by
  have none := (paced.fresh buffered).2
  have enough : (e.bus.unread e.cursor).length ≤ { e with dispatch := .idle }.forwardBound := by
    rw [Ring.length_unread]
    exact Nat.le_mul_of_pos_right _ (Nat.succ_pos _)
  obtain ⟨fills, published⟩ := forward_tracks (e := { e with dispatch := .idle }) unlost.heard h.fills
    (h.line (.inl buffered)) enough
  -- no subscriber has been given anything yet
  have idle : ∀ l ∈ ({ e with dispatch := .idle }.forwardAll).lanes, l.given = [] := by
    refine forward_keeps (P := fun e => ∀ l ∈ e.lanes, l.given = []) ?_ false _ ?_
    · intro e event cursor next idle l mem
      rw [(passed_emit next).lanes] at mem
      obtain ⟨old, memOld, rfl⟩ := List.mem_map.mp mem
      rw [Lane.given, Lane.offer_handled]
      exact idle old memOld
    · intro l mem
      obtain ⟨steady, accepted⟩ := h.fills l mem
      have order := steady.order
      rw [accepted, none] at order
      exact List.prefix_nil.mp order
  refine ⟨?_, published⟩
  intro l mem
  obtain ⟨old, memOld, rfl⟩ := List.mem_map.mp mem
  obtain ⟨steady, accepted⟩ := fills old memOld
  refine ⟨steady.close fun waits empty => ?_, accepted⟩
  have queued := steady.queued (by rw [Lane.isGone, waits]; rfl)
  rw [idle old memOld, empty] at queued
  exact List.reverse_eq_nil_iff.mp queued

theorem Tracked.of_appended {events : List Event} (h : e.Tracked) (trails : e.Trails)
    (appended : Appended e e' events) (lossless : e'.Lossless) : e'.Tracked := by
  refine ⟨?_, ?_, fun serves => ?_⟩
  · rw [Fills, appended.lanes, appended.forwarded]
    exact h.fills
  · rw [appended.forwarded, appended.published]
    exact h.order.trans (List.prefix_append _ _)
  · have kept := lossless.kept serves
    rw [appended.bus, appended.cursor] at kept
    rw [InLine, appended.forwarded, appended.bus, appended.cursor, appended.published,
      unread_foldl_of_kept trails kept, ← List.append_assoc, h.line (appended.serves.mp serves)]

theorem Tracked.beginFlush (h : e.Tracked) (paced : e.Paced) (s : Shutdown)
    (lossless : (e.beginFlush s).1.Lossless) : (e.beginFlush s).1.Tracked := by
  unfold Engine.beginFlush at lossless ⊢
  split
  · exact h
  · refine ⟨h.fills, h.order, ?_⟩
    rintro (buffered | receiving)
    · cases buffered
    · exact h.line (.inr receiving)
  · rename_i buffered
    simp only [buffered] at lossless
    obtain ⟨fills, published⟩ :=
      h.flush paced buffered (unlost_of_closeLanes lossless.toUnlost)
    exact ⟨fills, published ▸ List.prefix_refl _,
      fun serves => absurd serves (not_serves_flushed (paced.fresh buffered).1)⟩

theorem tracked_awaitWorkers (fills : e.Fills) (order : e.forwarded.reverse <+: e.published)
    (taken : e.dispatch ≠ .buffered) : e.awaitWorkers.Tracked := by
  have settled {pump : Pump} (away : pump ≠ .receiving) : { e with pump }.Tracked := by
    refine ⟨fills, order, ?_⟩
    rintro (buffered | receiving)
    · exact absurd buffered taken
    · exact absurd receiving away
  unfold awaitWorkers
  split
  · exact settled (by decide)
  · exact settled (by decide)

theorem Tracked.receive (h : e.Tracked) (paced : e.Paced) (lossless : e.receive.Lossless) :
    e.receive.Tracked := by
  have step := e.receive_step
  generalize e.receive = after at step lossless ⊢
  cases step with
  | nothing idle => exact h
  | passes event cursor receiving next goesOn =>
      obtain ⟨fills, line, -, -⟩ :=
        (passed_emit next).tracks lossless.heard h.fills (h.line (.inr receiving))
      refine ⟨fills, ?_, fun _ => line⟩
      rw [← line]
      exact List.prefix_append _ _
  | ends event cursor receiving next last =>
      have unlost := unlost_of_closeLanes (unlost_of_awaitWorkers lossless.toUnlost)
      have passed := passed_emit next
      obtain ⟨fills, line, some, -⟩ := passed.tracks unlost.heard h.fills (h.line (.inr receiving))
      have order : ({ e with cursor }.emit event).forwarded.reverse <+:
          ({ e with cursor }.emit event).published := by
        rw [← line]
        exact List.prefix_append _ _
      refine tracked_awaitWorkers ?_ order ?_
      · intro l mem
        obtain ⟨old, memOld, rfl⟩ := List.mem_map.mp mem
        obtain ⟨steady, accepted⟩ := fills old memOld
        exact ⟨steady.close fun _ empty => absurd empty (some old memOld), accepted⟩
      · show ({ e with cursor }.emit event).dispatch ≠ .buffered
        rw [passed.dispatch]
        exact paced.not_buffered (by rw [receiving]; decide)
  | awaits closing =>
      exact tracked_awaitWorkers h.fills h.order (paced.not_buffered (by rw [closing]; decide))

theorem Tracked.work (h : e.Tracked) (trails : e.Trails) (i : Nat)
    (lossless : (e.workLane i).Lossless) : (e.workLane i).Tracked := by
  have forwarded := forwarded_workLane e i
  have published := published_workLane e i
  refine ⟨?_, ?_, fun serves => ?_⟩
  · rw [Fills, forwarded]
    rcases e.workLane_cases i with ⟨-, same⟩ | ⟨l, there, lanes, -⟩
    · rw [same]
      exact h.fills
    · rw [lanes]
      intro l' mem'
      rcases List.mem_or_eq_of_mem_set mem' with mem' | rfl
      · exact h.fills l' mem'
      · obtain ⟨steady, accepted⟩ := h.fills l (List.mem_of_getElem? there)
        exact ⟨steady.work e.now, (Lane.worked_work e.now l).accepted.trans accepted⟩
  · rw [forwarded, published]
    exact h.order.trans (List.prefix_append _ _)
  · have kept := lossless.kept serves
    have bus : (e.workLane i).bus = (TaskEngine.workLane e.now e.lanes i).2.foldl Ring.push e.bus := by
      rw [workLane_eq]
    have cursor : (e.workLane i).cursor = e.cursor := by rw [workLane_eq]
    rw [bus, cursor] at kept
    rw [InLine, forwarded, bus, cursor, published, unread_foldl_of_kept trails kept,
      ← List.append_assoc, h.line ((serves_workLane e i).mp serves)]

/-- As long as nothing is lost, everything is tracked. -/
theorem Tracked.feeds (h : e.Tracked) (paced : e.Paced) (trails : e.Trails) (lossless : e'.Lossless)
    (feeds : Feeds e e') : e'.Tracked := by
  cases feeds with
  | publishes published phase => exact h.of_appended trails published.appended lossless
  | start token fresh => exact h.of_appended trails (appended_entered e token) lossless
  | announceEnd stopped => exact h.of_appended trails (appended_publish e _) lossless
  | beginFlush s stopped => exact h.beginFlush paced s lossless
  | receive => exact h.receive paced lossless
  | work i => exact h.work trails i lossless

/-! ## 5. All histories -/

/-- The pump keeps its pace, and everything is tracked unless something is lost. -/
structure Traced (e : Engine) : Prop where
  trails : e.Trails
  paced : e.Paced
  tracked : e.Lossless → e.Tracked

theorem traced_create (config : Config) (subs : List Subscriber) : (create config subs).Traced :=
  ⟨trails_create config subs, paced_create config subs, fun _ => tracked_create config subs⟩

theorem Traced.feeds (h : e.Traced) (feeds : Feeds e e') : e'.Traced :=
  ⟨h.trails.feeds feeds, h.paced.feeds feeds, fun lossless =>
    (h.tracked (lossless.of_feeds h.paced feeds)).feeds h.paced h.trails lossless feeds⟩

theorem traced_after {config : Config} {subs : List Subscriber} {moves : List Move}
    (admitted : (create config subs).admits moves = true) :
    ((create config subs).after moves).Traced :=
  feeds_after (fun _ _ h => Traced.feeds h) admitted (traced_create config subs)

/-- If nothing is lost at last, nothing was lost before. -/
theorem lossless_of_after {moves : List Move} (admitted : e.admits moves = true) (paced : e.Paced)
    (lossless : (e.after moves).Lossless) : e.Lossless := by
  have kept : (e.after moves).Paced ∧ ((e.after moves).Lossless → e.Lossless) := by
    refine feeds_after (P := fun now => now.Paced ∧ (now.Lossless → e.Lossless)) ?_ admitted
      ⟨paced, id⟩
    rintro now next ⟨paced, before⟩ feeds
    exact ⟨paced.feeds feeds, fun lossless => before (lossless.of_feeds paced feeds)⟩
  exact kept.2 lossless

end Engine

end TaskEngine
