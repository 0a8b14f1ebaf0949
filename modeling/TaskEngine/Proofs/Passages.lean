/-
  TaskEngine/Proofs/Passages.lean
  ===============================
  **What is passed on to the lanes, and in which order.**

  Events wait in the ring until they are passed on; when the ring is full, a new event is written over
  the one that has waited longest.  Which events were written over can be read off the journal alone
  (`Engine.passage`): nothing else decides it than the order in which events were published and passed
  on, and the room in the ring.  What was not written over was passed on, in order, or still waits in
  the ring (`InPassage`).

  The pump stops after the first end marker.  A shutdown before the start passes on what it finds, and
  the refusals that come of it, and nobody passes anything on after that (`HandedOver`).
-/
import TaskEngine.Proofs.Draining
import TaskEngine.Proofs.Notes
import TaskEngine.Proofs.Quiescence

namespace TaskEngine

/-! ## 1. Events on their way -/

/-- The events up to and including the first end marker. -/
def throughEnd : List Event → List Event
  | [] => []
  | event :: events =>
      if event.kind = .allStoppedWithin then [event] else event :: throughEnd events

theorem throughEnd_append {first : List Event}
    (unmarked : ∀ event ∈ first, event.kind ≠ .allStoppedWithin) (second : List Event) :
    throughEnd (first ++ second) = first ++ throughEnd second := by
  induction first with
  | nil => rfl
  | cons event first ih =>
      rw [List.cons_append, throughEnd, if_neg (unmarked event List.mem_cons_self),
        ih fun other mem => unmarked other (List.mem_cons_of_mem _ mem), List.cons_append]

theorem throughEnd_of_unmarked {events : List Event}
    (unmarked : ∀ event ∈ events, event.kind ≠ .allStoppedWithin) : throughEnd events = events := by
  have whole := throughEnd_append unmarked []
  rw [List.append_nil] at whole
  rw [whole]
  exact List.append_nil _

theorem EndsMarked.throughEnd_append {first : List Event} (h : EndsMarked first)
    (second : List Event) : throughEnd (first ++ second) = first := by
  obtain ⟨rest, marker, rfl, kind, unmarked⟩ := h
  rw [List.append_assoc, TaskEngine.throughEnd_append unmarked, List.singleton_append, throughEnd,
    if_pos kind]

theorem EndsMarked.throughEnd_eq {first all : List Event} (h : EndsMarked first)
    (before : first <+: all) : throughEnd all = first := by
  obtain ⟨rest, rfl⟩ := before
  exact h.throughEnd_append rest

/-- Where nothing comes after the first end marker, this is so for every part. -/
theorem throughEnd_of_sublist {some all : List Event} (within : some.Sublist all)
    (last : throughEnd all = all) : throughEnd some = some := by
  induction within with
  | slnil => rfl
  | @cons some all event within ih =>
      by_cases marker : event.kind = .allStoppedWithin
      · rw [throughEnd, if_pos marker] at last
        have nothing : all = [] := (List.cons.inj last).2.symm
        rw [nothing] at within
        rw [List.sublist_nil.mp within]
        rfl
      · rw [throughEnd, if_neg marker] at last
        exact ih (List.cons.inj last).2
  | @cons_cons some all event within ih =>
      by_cases marker : event.kind = .allStoppedWithin
      · rw [throughEnd, if_pos marker] at last
        have nothing : all = [] := (List.cons.inj last).2.symm
        rw [nothing] at within
        rw [List.sublist_nil.mp within, throughEnd, if_pos marker]
      · rw [throughEnd, if_neg marker] at last
        rw [throughEnd, if_neg marker, ih (List.cons.inj last).2]

/-- The events on their way through a ring, each with its place in the order of publication. -/
structure Passage where
  /-- How many were published. -/
  count : Nat := 0
  waiting : List (Event × Nat) := []
  passed : List (Event × Nat) := []
  /-- Those that others were written over while they were waiting. -/
  missed : List (Event × Nat) := []

namespace Passage

/-- A new event waits behind the others; if there is no room, the first of them is missed. -/
def publish (room : Nat) (p : Passage) (event : Event) : Passage :=
  let line := p.waiting ++ [(event, p.count)]
  { p with
    count := p.count + 1
    waiting := line.drop (line.length - room)
    missed := p.missed ++ line.take (line.length - room) }

/-- The event that has waited longest is passed on. -/
def forward (p : Passage) : Passage :=
  { p with waiting := p.waiting.tail, passed := p.passed ++ p.waiting.head?.toList }

def note (room : Nat) (p : Passage) : Note → Passage
  | .published event _ => p.publish room event
  | .forwarded _ => p.forward
  | .requested .. | .armed .. | .ticked _ | .began .. | .finished .. | .called .. | .logged _
  | .traced .. => p

/-- What the notes tell, the newest first. -/
def replay (room : Nat) (journal : List Entry) : Passage :=
  journal.foldr (fun entry p => p.note room entry.note) {}

/-- No event gets lost on its way, comes twice, or overtakes another. -/
structure Exact (p : Passage) (published : List Event) : Prop where
  count : p.count = published.length
  order : (p.passed ++ p.waiting).Sublist published.zipIdx
  all : (p.passed ++ p.waiting ++ p.missed).Perm published.zipIdx

variable {p : Passage} {published : List Event} {room : Nat}

theorem Exact.publish (h : p.Exact published) (event : Event) :
    (p.publish room event).Exact (published ++ [event]) := by
  have numbered : (published ++ [event]).zipIdx = published.zipIdx ++ [(event, p.count)] := by
    rw [h.count, List.zipIdx_append, Nat.zero_add]
    rfl
  constructor
  · rw [List.length_append, List.length_singleton, ← h.count]
    rfl
  · rw [numbered]
    have line := h.order.append (List.Sublist.refl [(event, p.count)])
    rw [List.append_assoc] at line
    exact ((List.Sublist.refl p.passed).append (List.drop_sublist _ _)).trans line
  · rw [numbered]
    have line := h.all.append_right [(event, p.count)]
    refine List.Perm.trans ?_ line
    apply List.perm_iff_count.mpr
    intro x
    have split := congrArg (List.count x) (List.take_append_drop
      ((p.waiting ++ [(event, p.count)]).length - room) (p.waiting ++ [(event, p.count)]))
    simp only [Passage.publish, List.count_append] at split ⊢
    omega

theorem Exact.forward (h : p.Exact published) : p.forward.Exact published := by
  have same : p.forward.passed ++ p.forward.waiting = p.passed ++ p.waiting := by
    simp only [Passage.forward, List.append_assoc]
    cases p.waiting <;> rfl
  constructor
  · exact h.count
  · rw [same]
    exact h.order
  · rw [same]
    exact h.all

theorem nodup_zipIdx (events : List Event) : events.zipIdx.Nodup := by
  have places : (events.zipIdx.map Prod.snd).Nodup := by
    rw [List.zipIdx_map_snd]
    exact List.nodup_range'
  exact (List.pairwise_map.mp places).imp fun apart same => apart (congrArg Prod.snd same)

/-- What was passed on or waits is what was published without what was missed. -/
theorem Exact.eq_filter (h : p.Exact published) :
    p.passed ++ p.waiting = published.zipIdx.filter (· ∉ p.missed) := by
  have nodup := h.all.nodup_iff.mpr (nodup_zipIdx published)
  have own : (p.passed ++ p.waiting).filter (· ∉ p.missed) = p.passed ++ p.waiting := by
    apply List.filter_eq_self.mpr
    intro x mem
    have apart := (List.nodup_append.mp nodup).2.2 x mem
    exact decide_eq_true fun missed => apart x missed rfl
  have others : p.missed.filter (· ∉ p.missed) = [] := by
    apply List.filter_eq_nil_iff.mpr
    intro x mem
    simp [mem]
  have within := h.order.filter (· ∉ p.missed)
  have perm := h.all.filter (· ∉ p.missed)
  rw [List.filter_append, own, others, List.append_nil] at perm
  rw [own] at within
  exact within.eq_of_length perm.length_eq

theorem exact_replay (room : Nat) (journal : List Entry) :
    (replay room journal).Exact (journal.filterMap (·.note.published?)).reverse := by
  induction journal with
  | nil => exact ⟨rfl, List.Sublist.refl _, List.Perm.refl _⟩
  | cons entry journal ih =>
      obtain ⟨time, n⟩ := entry
      show ((replay room journal).note room n).Exact _
      cases n with
      | published event task =>
          have reversed : ((⟨time, .published event task⟩ : Entry) :: journal).filterMap
              (·.note.published?) = event :: journal.filterMap (·.note.published?) := rfl
          rw [reversed, List.reverse_cons]
          exact ih.publish event
      | forwarded event => exact ih.forward
      | _ => exact ih

/-! ### Passages and rings -/

/-- What waits is what a reader of the ring will get, if new events are written to it. -/
theorem waiting_publish {r : Ring Event} {cursor : Nat} (event : Event) (trails : cursor ≤ r.sent)
    (waits : p.waiting.map (·.1) = r.unread cursor) :
    ((p.publish r.capacity event).waiting).map (·.1) = (r.push event).unread cursor := by
  have line : (p.waiting ++ [(event, p.count)]).map (·.1) = r.unread cursor ++ [event] := by
    rw [List.map_append, waits]
    rfl
  have length : (p.waiting ++ [(event, p.count)]).length = (r.unread cursor ++ [event]).length := by
    rw [← line, List.length_map]
  have suffix : (r.push event).unread cursor <:+ r.unread cursor ++ [event] := by
    obtain ⟨older, rest⟩ := r.unread_suffix (Nat.le_max_left cursor (r.push event).oldest)
    rw [Ring.unread_push r event trails, ← rest, List.append_assoc]
    exact List.suffix_append older _
  have excess : (r.unread cursor ++ [event]).length - r.capacity =
      (r.unread cursor ++ [event]).length - ((r.push event).unread cursor).length := by
    rw [Ring.length_unread, List.length_append, Ring.length_unread, List.length_singleton]
    simp only [Ring.backlog, Ring.oldest, Ring.push_sent, Ring.push_capacity]
    omega
  simp only [publish, List.map_drop, line, length, excess]
  exact (List.suffix_iff_eq_drop.mp suffix).symm

theorem waiting_publishes {r : Ring Event} {cursor : Nat} (events : List Event)
    (trails : cursor ≤ r.sent) (waits : p.waiting.map (·.1) = r.unread cursor) :
    ((events.foldl (publish r.capacity) p).waiting).map (·.1) =
      (events.foldl Ring.push r).unread cursor := by
  induction events generalizing p r with
  | nil => exact waits
  | cons event events ih =>
      exact ih (r := r.push event) (Nat.le_succ_of_le trails) (waiting_publish event trails waits)

theorem passed_publishes (events : List Event) (room : Nat) (p : Passage) :
    (events.foldl (publish room) p).passed = p.passed := by
  induction events generalizing p with
  | nil => rfl
  | cons event events ih => exact ih (p.publish room event)

/-- Notes among which nothing is passed on come down to the events that were published. -/
theorem replay_append {entries : List Entry} (journal : List Entry)
    (silent : ∀ entry ∈ entries, entry.note.forwarded? = none) :
    replay room (entries ++ journal) =
      (entries.filterMap (·.note.published?)).reverse.foldl (publish room)
        (replay room journal) := by
  induction entries with
  | nil => rfl
  | cons entry entries ih =>
      obtain ⟨time, n⟩ := entry
      have first : n.forwarded? = none := silent _ List.mem_cons_self
      have rest := ih fun other mem => silent other (List.mem_cons_of_mem _ mem)
      show (replay room (entries ++ journal)).note room n = _
      rw [rest]
      cases n with
      | published event task =>
          have reversed : ((⟨time, .published event task⟩ : Entry) :: entries).filterMap
              (·.note.published?) = event :: entries.filterMap (·.note.published?) := rfl
          rw [reversed, List.reverse_cons, List.foldl_append]
          rfl
      | forwarded event => cases first
      | _ => rfl

end Passage

namespace Engine

variable {e e' : Engine}

/-! ## 2. Engines -/

/-- What has become of the events that were published, as the journal tells it. -/
def passage (e : Engine) : Passage := .replay e.bus.capacity e.journal

/-- The events that were published and not written over before they were read. -/
def readable (e : Engine) : List Event :=
  (e.published.zipIdx.filter (· ∉ e.passage.missed)).map (·.1)

/-- What waits according to the journal waits in the ring, and what was passed on according to it was
passed on. -/
structure InPassage (e : Engine) : Prop where
  trails : e.Trails
  sent : e.bus.sent = e.published.length
  waits : e.passage.waiting.map (·.1) = e.bus.unread e.cursor
  passed : e.passage.passed.map (·.1) = e.forwarded.reverse

theorem inPassage_create (config : Config) (subs : List Subscriber) :
    (create config subs).InPassage := by
  refine ⟨trails_create config subs, rfl, ?_, rfl⟩
  have nothing : (create config subs).bus.unread 0 = [] := by
    simp [Ring.unread, create, Ring.ofCapacity]
  exact nothing.symm

/-- **What was not written over was passed on, in order, or still waits.** -/
theorem InPassage.readable_eq (h : e.InPassage) :
    e.forwarded.reverse ++ e.bus.unread e.cursor = e.readable := by
  have exact' : e.passage.Exact e.published := Passage.exact_replay _ _
  rw [readable, ← exact'.eq_filter, List.map_append, h.passed, h.waits]

/-- As many events were passed on or missed as the reader has put behind it. -/
theorem InPassage.behind (h : e.InPassage) :
    e.forwarded.length + e.passage.missed.length = max e.cursor e.bus.oldest := by
  have exact' : e.passage.Exact e.published := Passage.exact_replay _ _
  have all := exact'.all.length_eq
  have waits := congrArg List.length h.waits
  have passed := congrArg List.length h.passed
  have trails := h.trails
  have sent := h.sent
  simp only [List.length_append, List.length_zipIdx, List.length_map, List.length_reverse,
    Ring.length_unread, Trails] at all waits passed trails
  simp only [Ring.backlog, Ring.oldest] at waits ⊢
  omega

theorem InPassage.congr (h : e.InPassage) (bus : e'.bus = e.bus) (cursor : e'.cursor = e.cursor)
    (journal : e'.journal = e.journal) : e'.InPassage := by
  constructor
  · rw [Trails, bus, cursor]
    exact h.trails
  · rw [bus, published, journal]
    exact h.sent
  · rw [passage, bus, cursor, journal]
    exact h.waits
  · rw [passage, forwarded, bus, journal]
    exact h.passed

/-- Further events were written to the ring, and noted. -/
theorem InPassage.publishes (h : e.InPassage) {entries : List Entry}
    (journal : e'.journal = entries ++ e.journal)
    (silent : ∀ entry ∈ entries, entry.note.forwarded? = none)
    (bus : e'.bus = (entries.filterMap (·.note.published?)).reverse.foldl Ring.push e.bus)
    (cursor : e'.cursor = e.cursor) : e'.InPassage := by
  have capacity : e'.bus.capacity = e.bus.capacity := by rw [bus, capacity_foldl]
  have told : e'.passage = (entries.filterMap (·.note.published?)).reverse.foldl
      (Passage.publish e.bus.capacity) e.passage := by
    rw [passage, capacity, journal, Passage.replay_append _ silent]
    rfl
  constructor
  · rw [Trails, cursor, bus]
    exact Nat.le_trans h.trails (sent_le_foldl _ _)
  · have sent := h.sent
    rw [published, List.length_reverse] at sent
    rw [bus, sent_foldl, published, journal, List.filterMap_append, List.length_reverse,
      List.length_reverse, List.length_append, sent, Nat.add_comm]
  · rw [told, cursor, bus]
    exact Passage.waiting_publishes _ h.trails h.waits
  · rw [told, Passage.passed_publishes, h.passed, forwarded, forwarded, journal,
      List.filterMap_append, List.filterMap_eq_nil_iff.mpr silent, List.nil_append]

/-- The notes of reports tell of the reports. -/
theorem published_reports (now : Instant) (reports : List Event) :
    (((reports.map fun report => (⟨now, .published report none⟩ : Entry)).reverse).filterMap
      (·.note.published?)).reverse = reports := by
  rw [← List.filterMap_reverse, List.reverse_reverse, List.filterMap_map]
  exact List.filterMap_some

/-- Reports are written to the ring, and noted. -/
theorem InPassage.reports (h : e.InPassage) {now : Instant} (reports : List Event)
    (journal : e'.journal =
      (reports.map fun report => ⟨now, .published report none⟩).reverse ++ e.journal)
    (bus : e'.bus = reports.foldl Ring.push e.bus) (cursor : e'.cursor = e.cursor) :
    e'.InPassage := by
  refine h.publishes journal ?_ ?_ cursor
  · intro entry mem
    obtain ⟨report, -, rfl⟩ := List.mem_map.mp (List.mem_reverse.mp mem)
    rfl
  · rw [published_reports]
    exact bus

/-- An event is read and passed on, and the refusals of the lanes are written to the ring. -/
theorem InPassage.pass (h : e.InPassage) {event : Event} {cursor : Nat}
    (next : e.bus.next? e.cursor = some (event, cursor)) :
    ({ e with cursor }.emit event).InPassage := by
  have taken := Ring.unread_of_next? next
  have waits := h.waits
  rw [taken] at waits
  -- the event is noted before any refusal is
  have told : ({ e with cursor }.note (.forwarded event)).InPassage := by
    have forward : ({ e with cursor }.note (.forwarded event)).passage = e.passage.forward := rfl
    constructor
    · exact Ring.le_sent_of_next? next
    · exact h.sent
    · rw [forward]
      show e.passage.waiting.tail.map (·.1) = e.bus.unread cursor
      rw [List.map_tail, waits, List.tail_cons]
    · rw [forward]
      show (e.passage.passed ++ e.passage.waiting.head?.toList).map (·.1) =
        (event :: e.forwarded).reverse
      have head : (e.passage.waiting.head?.map (·.1)) = some event := by
        rw [← List.head?_map, waits, List.head?_cons]
      obtain ⟨first, is, same⟩ := Option.map_eq_some_iff.mp head
      rw [List.map_append, h.passed, is, List.reverse_cons, ← same]
      rfl
  rw [emit_eq]
  exact told.reports _ rfl rfl rfl

theorem inPassage_awaitWorkers (h : e.InPassage) : e.awaitWorkers.InPassage := by
  unfold awaitWorkers
  split <;> exact h.congr rfl rfl rfl

theorem InPassage.receive (h : e.InPassage) : e.receive.InPassage := by
  have step := e.receive_step
  generalize e.receive = after at step ⊢
  cases step with
  | nothing idle => exact h
  | passes event cursor receiving next goesOn => exact h.pass next
  | ends event cursor receiving next last =>
      have closed : ({ e with cursor }.emit event).closeLanes.InPassage :=
        (h.pass next).congr rfl rfl rfl
      exact inPassage_awaitWorkers closed
  | awaits closing => exact inPassage_awaitWorkers h

theorem InPassage.forwardAll (h : e.InPassage) : e.forwardAll.InPassage :=
  forward_keeps (P := InPassage) (fun _ _ _ next h => h.pass next) false _ h

theorem InPassage.beginFlush (h : e.InPassage) (s : Shutdown) : (e.beginFlush s).1.InPassage := by
  unfold Engine.beginFlush
  split
  · exact h
  · exact h.congr rfl rfl rfl
  · have taken : { e with dispatch := .idle }.InPassage := h.congr rfl rfl rfl
    exact taken.forwardAll.congr rfl rfl rfl

theorem InPassage.change {l : Licence} (h : e.InPassage) (change : Change l e e') :
    e'.InPassage := by
  obtain ⟨entries, journal, -⟩ := change.notes
  cases change.feeds with
  | publishes published phase =>
      -- the notes in between tell of the events that were written to the ring, and of no others
      have passed := published.forwarded
      have told := published.published
      rw [forwarded, journal, List.filterMap_append] at passed
      rw [Engine.published, journal, List.filterMap_append, List.reverse_append] at told
      refine h.publishes journal ?_ ?_ published.cursor
      · exact List.filterMap_eq_nil_iff.mp (List.append_cancel_right passed)
      · rw [List.append_cancel_left told]
        exact published.bus
  | start token fresh =>
      have same := appended_entered e token
      refine h.congr same.bus same.cursor ?_
      unfold entered
      exact journal_startPump _
  | announceEnd stopped => exact h.reports [_] rfl rfl rfl
  | beginFlush s stopped => exact h.beginFlush s
  | receive => exact h.receive
  | work i =>
      rw [workLane_eq]
      exact h.reports _ rfl rfl rfl

theorem inPassage_after {config : Config} {subs : List Subscriber} {moves : List Move}
    (admitted : (create config subs).admits moves = true) :
    ((create config subs).after moves).InPassage :=
  invariant_after (fun e m allowed h => (changes_perform allowed (Licence.suits_free e m)).keeps
    (fun _ _ change h => InPassage.change h change) h) admitted (inPassage_create config subs)

/-! ## 3. Shutdowns before the start -/

/-- How many events are still to be passed on, with the refusals that may come of them. -/
def passagesLeft (e : Engine) : Nat :=
  ((e.bus.unread e.cursor).map fun event =>
    if event.kind = .subscriberOverflow then 1 else e.lanes.length + 1).sum

theorem passagesLeft_le_forwardBound (e : Engine) : e.passagesLeft ≤ e.forwardBound := by
  rw [passagesLeft, forwardBound, ← Ring.length_unread]
  generalize e.bus.unread e.cursor = events
  induction events with
  | nil => exact Nat.zero_le _
  | cons event events ih =>
      rw [List.map_cons, List.sum_cons, List.length_cons, Nat.succ_mul, Nat.add_comm]
      apply Nat.add_le_add ih
      split
      · exact Nat.succ_le_succ (Nat.zero_le _)
      · exact Nat.le_refl _

/-- An event that is passed on causes fewer refusals than it counts for. -/
theorem passagesLeft_emit_lt {event : Event} {cursor : Nat}
    (next : e.bus.next? e.cursor = some (event, cursor)) :
    ({ e with cursor }.emit event).passagesLeft < e.passagesLeft := by
  let price (event : Event) : Nat :=
    if event.kind = .subscriberOverflow then 1 else e.lanes.length + 1
  have left : ({ e with cursor }.emit event).passagesLeft =
      (((emitTo e.lanes event).2.foldl Ring.push e.bus).unread cursor |>.map price).sum := by
    rw [passagesLeft, length_lanes_emit, emit_eq]
  have refusals := sum_unread_foldl_le price (emitTo e.lanes event).2 (Ring.le_sent_of_next? next)
  have each : ((emitTo e.lanes event).2.map price).sum = (emitTo e.lanes event).2.length * 1 := by
    apply sum_map_const
    intro report mem
    exact if_pos (kind_of_mem_emitTo mem)
  have fewer : (emitTo e.lanes event).2.length < price event := by
    by_cases overflow : event.kind = .subscriberOverflow
    · rw [Lane.emitTo_overflow e.lanes overflow]
      show 0 < price event
      simp only [price, if_pos overflow]
      exact Nat.one_pos
    · simp only [price, if_neg overflow]
      exact Nat.lt_succ_of_le (List.length_filterMap_le _ _)
  have now : e.passagesLeft = price event + ((e.bus.unread cursor).map price).sum := by
    rw [passagesLeft, Ring.unread_of_next? next, List.map_cons, List.sum_cons]
  omega

theorem unread_forward {fuel : Nat} (enough : e.passagesLeft ≤ fuel) :
    (e.forward false fuel).1.bus.unread (e.forward false fuel).1.cursor = [] := by
  induction fuel generalizing e with
  | zero =>
      cases next : e.bus.next? e.cursor with
      | none => exact Ring.unread_eq_nil_of_next? next
      | some found =>
          have less := passagesLeft_emit_lt next
          omega
  | succ fuel ih =>
      cases next : e.bus.next? e.cursor with
      | none =>
          simp only [forward, next]
          exact Ring.unread_eq_nil_of_next? next
      | some found =>
          obtain ⟨event, cursor⟩ := found
          have less := passagesLeft_emit_lt next
          simp only [forward, next, Bool.false_and, Bool.false_eq_true, if_false]
          apply ih
          omega

/-- Passing on all there is leaves nothing. -/
theorem unread_forwardAll (e : Engine) : e.forwardAll.bus.unread e.forwardAll.cursor = [] :=
  unread_forward e.passagesLeft_le_forwardBound

/-- Nobody passes anything on, or ever will; this is what was passed on. -/
structure HandedOver (events : List Event) (e : Engine) : Prop where
  stopped : e.phase = .stopped
  taken : e.dispatch = .idle
  absent : e.pump = .absent
  forwarded : e.forwarded.reverse = events

theorem HandedOver.feeds {events : List Event} (h : HandedOver events e) (feeds : Feeds e e') :
    HandedOver events e' := by
  have phase : e'.phase = .stopped := feeds.phase.2 h.stopped
  cases feeds with
  | publishes published _ =>
      constructor
      · exact phase
      · rw [published.dispatch]
        exact h.taken
      · rw [published.pump]
        exact h.absent
      · rw [published.forwarded]
        exact h.forwarded
  | start token fresh => cases h.stopped.symm.trans fresh
  | announceEnd stopped => exact ⟨phase, h.taken, h.absent, h.forwarded⟩
  | beginFlush s stopped =>
      have same : (e.beginFlush s).1 = e := by rw [beginFlush, h.taken]
      rw [same]
      exact h
  | receive =>
      rw [receive_of_absent h.absent]
      exact h
  | work i =>
      constructor
      · exact phase
      · rw [workLane_eq]
        exact h.taken
      · rw [pump_workLane]
        exact h.absent
      · rw [forwarded_workLane]
        exact h.forwarded

/-- A shutdown before the start hands over all that it finds in the ring, which is what was published
and not written over. -/
theorem handedOver_shutdown (passage : e.InPassage) (attended : e.Attended)
    (fresh : e.phase = .notStarted) (bound : Bound) (grace : Duration) :
    HandedOver (e.shutdown bound grace).1.readable (e.shutdown bound grace).1 := by
  let closed : Engine := { e with phase := .stopped }.finalize
  obtain ⟨absent, buffered⟩ := attended.fresh fresh
  have waits : closed.dispatch = .buffered := buffered
  have is : (e.shutdown bound grace).1 = { closed with dispatch := .idle }.forwardAll.closeLanes := by
    simp only [shutdown, fresh]
    show (closed.beginFlush { bound, grace }).1 = _
    rw [beginFlush, waits]
  have passage' : closed.InPassage := passage.congr rfl rfl rfl
  have flushed : (e.shutdown bound grace).1.InPassage := by
    rw [is]
    have taken : { closed with dispatch := .idle }.InPassage := passage'.congr rfl rfl rfl
    exact taken.forwardAll.congr rfl rfl rfl
  have nothing : (e.shutdown bound grace).1.bus.unread (e.shutdown bound grace).1.cursor = [] := by
    rw [is]
    exact unread_forwardAll { closed with dispatch := .idle }
  constructor
  · rw [is]
    exact (aside_forward false _ _).phase
  · rw [is]
    exact dispatch_forwardAll _
  · rw [is]
    exact (pump_forwardAll _).trans absent
  · rw [← flushed.readable_eq, nothing, List.append_nil]

/-! ## 4. Who passes events on -/

/-- There is a pump. -/
def IsPumped (e : Engine) : Prop := e.dispatch ≠ .buffered ∧ e.pump ≠ .absent

theorem IsPumped.feeds (h : e.IsPumped) (feeds : Feeds e e') : e'.IsPumped := by
  obtain ⟨taken, there⟩ := h
  cases feeds with
  | publishes published _ =>
      rw [IsPumped, published.dispatch, published.pump]
      exact ⟨taken, there⟩
  | start token fresh =>
      unfold entered startPump
      split
      · rename_i buffered
        exact absurd buffered taken
      · exact ⟨taken, there⟩
      · exact ⟨taken, there⟩
  | announceEnd stopped => exact ⟨taken, there⟩
  | beginFlush s stopped =>
      rw [beginFlush_of_fed s taken]
      exact ⟨(fun buffered => nomatch buffered), there⟩
  | receive =>
      rw [IsPumped, e.dispatch_receive, ne_eq, ne_eq, e.absent_receive]
      exact ⟨taken, there⟩
  | work i =>
      rw [IsPumped, pump_workLane, workLane_eq]
      exact ⟨taken, there⟩

theorem isPumped_of_started (attended : e.Attended) (taken : e.dispatch ≠ .buffered)
    (started : e.phase = .running ∨ e.phase = .stopping) : e.IsPumped := by
  obtain ⟨receiving, -⟩ := attended.busy started
  refine ⟨taken, ?_⟩
  rw [receiving]
  decide

/-- Events only wait for the start before it. -/
theorem notStarted_of_buffered (attended : e.Attended) (still : e.Still)
    (buffered : e.dispatch = .buffered) : e.phase = .notStarted := by
  have busy := attended.busy
  rw [buffered] at busy
  cases phase : e.phase with
  | notStarted => rfl
  | running => cases (busy (.inl phase)).2
  | stopping => cases (busy (.inr phase)).2
  | stopped => cases buffered.symm.trans (still.settled phase).taken

/-- Events wait for the start, there is a pump, or a shutdown came before the start. -/
theorem served_after {config : Config} {subs : List Subscriber} (some : subs ≠ []) {moves : List Move}
    (admitted : (create config subs).admits moves = true) :
    let e := (create config subs).after moves
    e.dispatch = .buffered ∨ e.IsPumped ∨
      ∃ before bound grace rest, moves = before ++ .shutdown bound grace :: rest ∧
        ((create config subs).after before).phase = .notStarted := by
  intro e
  by_cases waits : e.dispatch = .buffered
  · exact .inl waits
  refine .inr ?_
  -- one of the moves has taken the events away from where they waited
  have begun : (create config subs).dispatch = .buffered := ((attended_create config some).fresh rfl).2
  obtain ⟨before, m, rest, rfl, buffered, taken⟩ :=
    origin_of_after (P := fun e => e.dispatch ≠ .buffered) (fun taken => taken begun) waits
  obtain ⟨first, following⟩ := (admits_append ..).mp admitted
  obtain ⟨allowed, last⟩ := (admits_cons ..).mp following
  have attended := attended_after some first
  have fresh : ((create config subs).after before).phase = .notStarted :=
    notStarted_of_buffered attended (still_after first) (Classical.not_not.mp buffered)
  have next : (((create config subs).after before).perform m).Attended :=
    feeds_perform (fun _ _ h => Attended.feeds h) allowed attended
  have pumps (started : (((create config subs).after before).perform m).phase = .running ∨
      (((create config subs).after before).perform m).phase = .stopping) : e.IsPumped := by
    have is : e = (((create config subs).after before).perform m).after rest := by
      show (create config subs).after _ = _
      rw [after_append, after_cons]
    rw [is]
    exact feeds_after (fun _ _ h => IsPumped.feeds h) last (isPumped_of_started next taken started)
  cases phase : (((create config subs).after before).perform m).phase with
  | notStarted => exact absurd (next.fresh phase).2 taken
  | running => exact .inl (pumps (.inl phase))
  | stopping => exact .inl (pumps (.inr phase))
  | stopped =>
      obtain ⟨bound, grace, rfl⟩ := shutdown_of_stops fresh allowed phase
      exact .inr ⟨before, bound, grace, rest, rfl, fresh⟩

/-- After a shutdown before the start, nothing is passed on but what it handed over. -/
theorem handedOver_after {config : Config} {subs : List Subscriber} (some : subs ≠ [])
    {before rest : List Move} {bound : Bound} {grace : Duration}
    (admitted : (create config subs).admits (before ++ .shutdown bound grace :: rest) = true)
    (fresh : ((create config subs).after before).phase = .notStarted) :
    HandedOver ((create config subs).after (before ++ [.shutdown bound grace])).readable
      ((create config subs).after (before ++ .shutdown bound grace :: rest)) := by
  obtain ⟨first, following⟩ := (admits_append ..).mp admitted
  obtain ⟨-, last⟩ := (admits_cons ..).mp following
  have handed := handedOver_shutdown (inPassage_after first) (attended_after some first) fresh bound
    grace
  have stays := feeds_after (fun _ _ h => HandedOver.feeds h) last handed
  rw [after_append, after_append]
  exact stays

/-- What a shutdown before the start hands over has no end marker. -/
theorem unmarked_handedOver {config : Config} {subs : List Subscriber} {before : List Move}
    (admitted : (create config subs).admits before = true)
    (fresh : ((create config subs).after before).phase = .notStarted) (bound : Bound)
    (grace : Duration) : ∀ event ∈ ((create config subs).after
      (before ++ [.shutdown bound grace])).readable, event.kind ≠ .allStoppedWithin := by
  let e := (create config subs).after before
  have reports : Publishes (·.isReport = true) e (e.shutdown bound grace).1 := by
    simp only [shutdown, show e.phase = .notStarted from fresh]
    exact reports_beginFlush { e with phase := .stopped }.finalize _
  intro event mem marker
  rw [after_append] at mem
  have published : event ∈ (e.shutdown bound grace).1.published := by
    obtain ⟨⟨_, place⟩, inside, rfl⟩ := List.mem_map.mp mem
    exact (List.mem_zipIdx' (List.mem_filter.mp inside).1).2 ▸ List.getElem_mem _
  rcases reports.kind_of_mem published with old | report
  · cases fresh.symm.trans ((ready_after admitted).unended ⟨event, old, marker⟩)
  · rw [marker] at report
    cases report

/-- **The pump and the shutdowns before the start pass on what was published and not written over, in
order, up to and including the first end marker.** -/
theorem forwarded_prefix_throughEnd {config : Config} {subs : List Subscriber} (some : subs ≠ [])
    {moves : List Move} (admitted : (create config subs).admits moves = true) :
    let e := (create config subs).after moves
    e.forwarded.reverse <+: throughEnd e.readable ∧
      throughEnd e.forwarded.reverse = e.forwarded.reverse ∧
      (e.pump = .closing ∨ e.pump = .ended → e.forwarded.reverse = throughEnd e.readable) := by
  intro e
  have passage : e.InPassage := inPassage_after admitted
  have paced : e.Paced := (traced_after admitted).paced
  have goesOn (unmarked : ∀ event ∈ e.forwarded.reverse, event.kind ≠ .allStoppedWithin) :
      e.forwarded.reverse <+: throughEnd e.readable ∧
        throughEnd e.forwarded.reverse = e.forwarded.reverse := by
    constructor
    · rw [← passage.readable_eq, throughEnd_append unmarked]
      exact List.prefix_append _ _
    · exact throughEnd_of_unmarked unmarked
  have ends (marked : EndsMarked e.forwarded.reverse) :
      throughEnd e.readable = e.forwarded.reverse ∧
        throughEnd e.forwarded.reverse = e.forwarded.reverse := by
    constructor
    · rw [← passage.readable_eq]
      exact marked.throughEnd_append _
    · exact marked.throughEnd_eq (List.prefix_refl _)
  have ended (last : e.pump = .closing ∨ e.pump = .ended) :
      e.forwarded.reverse <+: throughEnd e.readable ∧
        throughEnd e.forwarded.reverse = e.forwarded.reverse := by
    obtain ⟨all, same⟩ := ends (paced.last last)
    exact ⟨all ▸ List.prefix_refl _, same⟩
  have parts : e.forwarded.reverse <+: throughEnd e.readable ∧
      throughEnd e.forwarded.reverse = e.forwarded.reverse := by
    rcases served_after some admitted with waits | pumped | ⟨before, bound, grace, rest, rfl, fresh⟩
    · apply goesOn
      rw [(paced.fresh waits).2]
      exact fun _ mem => absurd mem List.not_mem_nil
    · cases pump : e.pump with
      | absent => exact absurd pump pumped.2
      | receiving => exact goesOn fun event mem => paced.goesOn pump event (List.mem_reverse.mp mem)
      | closing => exact ended (.inl pump)
      | ended => exact ended (.inr pump)
    · apply goesOn
      rw [(handedOver_after some admitted fresh).forwarded]
      exact unmarked_handedOver ((admits_append ..).mp admitted).1 fresh bound grace
  exact ⟨parts.1, parts.2, fun last => (ends (paced.last last)).1.symm⟩

end Engine

end TaskEngine
