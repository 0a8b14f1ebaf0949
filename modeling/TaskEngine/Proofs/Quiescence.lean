/-
  TaskEngine/Proofs/Quiescence.lean
  =================================
  **When the way from the ring to the lanes and back comes to rest.**

  The pump passes events on to the lanes, and the lanes publish reports on the ring that the pump
  reads.  Left alone, does this come to an end?  Reports of refusals are not themselves reported, but
  nothing of the kind holds of reports of panics: they are passed on to the lane that panicked.

  So it depends on what the subscribers panic over.  If they panic neither over reports of panics nor
  over reports of refusals, every event is worth a number of turns that can be told in advance
  (`effort`), and the number only goes down.  If they panic over reports of panics and over the end
  marker at most, then no worker publishes anything for as long as the pump receives, and the same
  account holds.  In all other cases there is an endless run: a report that brings itself about.
-/
import Mathlib.Logic.Relation
import TaskEngine.Proofs.Feeding

namespace TaskEngine

/-! ## 1. Turns without anything new -/

namespace Engine

variable {e e' : Engine}

/-- The pump receives an event, or a worker takes a turn, now or once its deadline has passed. -/
inductive FeedStep (e : Engine) : Engine → Prop where
  | pump (due : e.canPump = true) : FeedStep e e.receive
  | work (i : Nat) (l : Lane) (now : Instant) (later : e.now.ns ≤ now.ns) (there : e.lanes[i]? = some l)
      (due : l.canWork now = true) : FeedStep e ({ e with now }.workLane i)

/-- However the pump and the workers take turns, they run out of turns. -/
def ComesToRest (e : Engine) : Prop := Acc (fun later earlier => FeedStep earlier later) e

theorem ComesToRest.reaches (h : e.ComesToRest) :
    ∃ final, Relation.ReflTransGen FeedStep e final ∧ ∀ next, ¬FeedStep final next := by
  induction h with
  | intro e _ ih =>
      by_cases more : ∃ next, FeedStep e next
      · obtain ⟨next, step⟩ := more
        obtain ⟨final, reached, rest⟩ := ih next step
        exact ⟨final, .head step reached, rest⟩
      · exact ⟨e, .refl, fun next step => more ⟨next, step⟩⟩

theorem ComesToRest.no_endless_run (h : e.ComesToRest) (run : Nat → Engine) (start : run 0 = e) :
    ∃ n, ¬FeedStep (run n) (run (n + 1)) := by
  induction h generalizing run with
  | intro e _ ih =>
      by_cases first : FeedStep (run 0) (run 1)
      · obtain ⟨n, stuck⟩ := ih (run 1) (start ▸ first) (fun n => run (n + 1)) rfl
        exact ⟨n + 1, stuck⟩
      · exact ⟨0, first⟩

/-- States from which one always gets back to such a state never come to rest. -/
theorem not_comesToRest {P : Engine → Prop} (again : ∀ e, P e →
    ∃ e', P e' ∧ Relation.TransGen FeedStep e e') (he : P e) : ¬e.ComesToRest := by
  intro rests
  have runs := rests.transGen
  clear rests
  induction runs with
  | intro e _ ih =>
      obtain ⟨e', he', back⟩ := again e he
      exact ih e' (Relation.transGen_swap.mpr back) he'

theorem FeedStep.keeps {P : Engine → Prop} (feeds : ∀ e e', P e → Feeds e e' → P e') (he : P e)
    (step : FeedStep e e') : P e' := by
  cases step with
  | pump due => exact feeds e _ he .receive
  | work i l now later there due =>
      have waited : Published e { e with now } [] := published_nothing rfl
      exact feeds _ _ (feeds e _ he (.publishes waited (.inl rfl))) (.work i)

end Engine

/-! ## 2. What is left to do for a lane -/

namespace Lane

variable (cost : Event → Nat) {price : Nat} {l : Lane} {e : Event} {now : Instant}

/-- What is left to do for a lane, if having an event handled costs what `cost` says: the event is
taken out of the queue, it is done with, and at last the worker ends. -/
def load (cost : Event → Nat) (l : Lane) : Nat :=
  (l.queue.map fun e => cost e + 2).sum + (l.inHand.map fun e => cost e + 1).sum +
    if l.isGone then 0 else 1

theorem load_waiting (waits : l.worker = .waiting) :
    l.load cost = (l.queue.map fun e => cost e + 2).sum + 1 := by
  simp [load, inHand, isGone, waits]

theorem load_handling {due : Instant} (busy : l.worker = .handling e due) :
    l.load cost = (l.queue.map fun e => cost e + 2).sum + (cost e + 1) + 1 := by
  simp [load, inHand, isGone, busy]

theorem load_gone (gone : l.worker = .gone) (empty : l.queue = []) : l.load cost = 0 := by
  simp [load, inHand, isGone, gone, empty]

theorem load_offer_le (l : Lane) (e : Event) : (l.offer e).load cost ≤ l.load cost + (cost e + 2) := by
  cases room : l.refusal? with
  | some r =>
      rw [offer_of_refused room]
      exact Nat.le_add_right _ _
  | none =>
      rw [offer_of_room room]
      show ((l.queue ++ [e]).map fun e => cost e + 2).sum + (l.inHand.map fun e => cost e + 1).sum +
        (if l.isGone then 0 else 1) ≤ _
      rw [List.map_append, List.sum_append, List.map_singleton, List.sum_singleton, load]
      omega

theorem load_emitTo_le (price : Nat) (lanes : List Lane) (e : Event) :
    ((emitTo lanes e).1.map (load cost)).sum + (emitTo lanes e).2.length * price ≤
      (lanes.map (load cost)).sum + lanes.length * (cost e + 2 + price) := by
  induction lanes with
  | nil => simp [emitTo]
  | cons l lanes ih =>
      have first := load_offer_le cost l e
      simp only [emitTo, List.map_cons, List.sum_cons, List.length_cons, List.filterMap_cons,
        Nat.succ_mul] at ih ⊢
      cases l.offerReport? e with
      | none =>
          simp only
          omega
      | some report =>
          simp only [List.length_cons, Nat.succ_mul]
          omega

theorem emitTo_overflow (lanes : List Lane) (overflow : e.kind = .subscriberOverflow) :
    (emitTo lanes e).2 = [] := by
  apply List.filterMap_eq_nil_iff.mpr
  intro l _
  rw [offerReport?, if_pos overflow]

/-- Being done with an event, and going on with what `go` makes of the lane if the worker is not
lost. -/
theorem load_delivered (price : Nat) {rest : Nat} (go : Lane → Lane × List Event)
    (pays : e.kind ∈ l.subscriber.panicsOn → price ≤ cost e)
    (left : (go { l with worker := .waiting }).1.load cost +
      (go { l with worker := .waiting }).2.length * price ≤ rest) :
    let done := l.delivered e
    let next := if done.1.isGone then done else ((go done.1).1, done.2 ++ (go done.1).2)
    next.1.load cost + next.2.length * price ≤ cost e + rest := by
  have step := l.delivered_step e
  generalize l.delivered e = result at step
  have goesOn : isGone { l with worker := .waiting } = false := rfl
  cases step with
  | lost fatal =>
      have nothing : load cost { l with worker := .gone, queue := [] } = 0 := load_gone cost rfl rfl
      simp [isGone, nothing]
  | reported panics =>
      have disturbed : l.reception e ≠ .handled := by
        rw [panics]
        decide
      have paid := pays (Subscriber.kind_mem_panicsOn disturbed)
      simp only [goesOn, Bool.false_eq_true, if_false, List.length_append, List.length_singleton,
        Nat.add_mul]
      omega
  | handled calm =>
      simp only [goesOn, Bool.false_eq_true, if_false, List.nil_append]
      omega

/-- Working through events, with `price` for each report: if every event over which the subscriber
may panic costs as much as its report, there is less to do afterwards. -/
theorem load_workThrough (now : Instant) (events : List Event) (l : Lane)
    (pays : ∀ e ∈ events, e.kind ∈ l.subscriber.panicsOn → price ≤ cost e) :
    (l.workThrough now events).1.load cost + (l.workThrough now events).2.length * price +
      min events.length 1 ≤ (events.map fun e => cost e + 2).sum + 1 := by
  induction events generalizing l with
  | nil =>
      unfold workThrough load inHand isGone
      cases l.isOpen <;> simp
  | cons e rest ih =>
      have others : ∀ e ∈ rest, e.kind ∈ l.subscriber.panicsOn → price ≤ cost e :=
        fun e mem => pays e (List.mem_cons_of_mem _ mem)
      let taken : Lane := { l with queue := rest, handled := (now, e) :: l.handled }
      have left := ih { taken with worker := .waiting } others
      unfold workThrough
      dsimp only
      split
      · -- the subscriber takes no time: the worker goes on with the rest
        have done := load_delivered cost (l := taken) price (workThrough now rest)
          (pays e List.mem_cons_self) (Nat.le_of_add_right_le left)
        refine Nat.le_trans (Nat.add_le_add_right done _) ?_
        simp only [List.length_cons, List.map_cons, List.sum_cons]
        omega
      · rw [load_handling cost rfl]
        simp only [List.map_cons, List.sum_cons, List.length_nil, List.length_cons]
        omega

theorem load_work_lt (price : Nat) (due : l.canWork now = true)
    (pays : ∀ e ∈ l.held, e.kind ∈ l.subscriber.panicsOn → price ≤ cost e) :
    (l.work now).1.load cost + (l.work now).2.length * price < l.load cost := by
  cases worker : l.worker with
  | gone =>
      rw [canWork, worker] at due
      cases due
  | waiting =>
      rw [held_waiting worker] at pays
      rw [work, worker, load_waiting cost worker]
      cases queue : l.queue with
      | nil =>
          have closed : l.isOpen = false := by simpa [canWork, worker, queue] using due
          simp [workThrough, closed, load, inHand, isGone]
      | cons e rest =>
          have through := load_workThrough cost now l.queue l pays
          rw [queue, List.length_cons] at through
          dsimp only
          omega
  | handling e due' =>
      rw [held_handling worker] at pays
      have isDue : due'.isDue now = true := by simpa [canWork, worker] using due
      have left := load_workThrough cost now l.queue { l with worker := .waiting }
        fun e mem => pays e (List.mem_cons_of_mem _ mem)
      have done := load_delivered cost price (fun l => l.workThrough now l.queue)
        (pays e List.mem_cons_self) (Nat.le_of_add_right_le left)
      rw [work, worker, load_handling cost worker]
      simp only [isDue, if_true]
      refine Nat.lt_of_le_of_lt done ?_
      omega

end Lane

/-! ## 3. What is left to do for an engine -/

/-- What it takes to pass a report of a refusal on to `lanes` lanes and to have it handled. -/
def refusalPrice (lanes : Nat) : Nat := 2 * lanes + 1

/-- What it takes to do so with a report of a panic, whatever is refused on the way. -/
def panicPrice (lanes : Nat) : Nat := lanes * (2 + refusalPrice lanes) + 1

/-- What having an event handled costs, if panics over the kinds that `wild` picks are reported. -/
def handlingCost (wild : EventKind → Bool) (lanes : Nat) (e : Event) : Nat :=
  if wild e.kind then panicPrice lanes else 0

/-- What it takes to pass an event on and to have it handled, with all that follows. -/
def eventPrice (wild : EventKind → Bool) (lanes : Nat) (e : Event) : Nat :=
  if e.kind = .subscriberOverflow then refusalPrice lanes
  else lanes * (handlingCost wild lanes e + 2 + refusalPrice lanes) + 1

def Pump.stages : Pump → Nat
  | receiving => 2
  | closing => 1
  | absent | ended => 0

namespace Engine

variable {e e' : Engine} {wild : EventKind → Bool}

/-- What the ring costs: nothing once it is not read any more. -/
def ringEffort (wild : EventKind → Bool) (e : Engine) : Nat :=
  if e.pump = .receiving then
    ((e.bus.unread e.cursor).map (eventPrice wild e.lanes.length)).sum
  else 0

def laneEffort (wild : EventKind → Bool) (e : Engine) : Nat :=
  (e.lanes.map (Lane.load (handlingCost wild e.lanes.length))).sum

/-- A bound on the turns that the pump and the workers still have. -/
def effort (wild : EventKind → Bool) (e : Engine) : Nat :=
  e.ringEffort wild + e.laneEffort wild + e.pump.stages

theorem sum_unread_foldl_le (f : Event → Nat) (events : List Event) {r : Ring Event} {cursor : Nat}
    (trails : cursor ≤ r.sent) : (((events.foldl Ring.push r).unread cursor).map f).sum ≤
      ((r.unread cursor).map f).sum + (events.map f).sum := by
  induction events generalizing r with
  | nil => simp
  | cons event events ih =>
      have rest := ih (r := r.push event) (Nat.le_succ_of_le trails)
      have fewer : ((r.unread (max cursor (r.push event).oldest)).map f).sum ≤
          ((r.unread cursor).map f).sum := by
        obtain ⟨lost, split⟩ := r.unread_suffix (Nat.le_max_left cursor (r.push event).oldest)
        rw [← split, List.map_append, List.sum_append]
        exact Nat.le_add_left _ _
      rw [Ring.unread_push r event trails, List.map_append, List.sum_append] at rest
      simp only [List.map_cons, List.map_nil, List.sum_cons, List.sum_nil] at rest
      simp only [List.foldl_cons, List.map_cons, List.sum_cons]
      omega

theorem sum_map_const {f : Event → Nat} {price : Nat} {events : List Event}
    (same : ∀ event ∈ events, f event = price) : (events.map f).sum = events.length * price := by
  rw [List.map_congr_left same, List.map_const', List.sum_replicate_nat]

theorem length_lanes_emit (e : Engine) (event : Event) :
    (e.emit event).lanes.length = e.lanes.length := by
  rw [emit_eq]
  exact List.length_map _

theorem effort_emit_lt (quiet : wild .subscriberOverflow = false)
    (receiving : e.pump = .receiving) {event : Event} {cursor : Nat}
    (next : e.bus.next? e.cursor = some (event, cursor)) :
    ({ e with cursor }.emit event).ringEffort wild + ({ e with cursor }.emit event).laneEffort wild <
      e.ringEffort wild + e.laneEffort wild := by
  have length : ({ e with cursor }.emit event).lanes.length = e.lanes.length :=
    length_lanes_emit _ event
  have receives : ({ e with cursor }.emit event).pump = .receiving := by
    rw [emit_eq]
    exact receiving
  have read := Ring.unread_of_next? next
  have published := sum_unread_foldl_le (eventPrice wild e.lanes.length) (emitTo e.lanes event).2
    (Ring.le_sent_of_next? next)
  have bus : ({ e with cursor }.emit event).bus = (emitTo e.lanes event).2.foldl Ring.push e.bus := by
    rw [emit_eq]
  have cursor' : ({ e with cursor }.emit event).cursor = cursor := by rw [emit_eq]
  have lanes : ({ e with cursor }.emit event).lanes = (emitTo e.lanes event).1 := by rw [emit_eq]
  rw [ringEffort, laneEffort, if_pos receives, length, bus, cursor', lanes, ringEffort, laneEffort,
    if_pos receiving, read, List.map_cons, List.sum_cons]
  by_cases overflow : event.kind = .subscriberOverflow
  · have silent := Lane.emitTo_overflow e.lanes overflow
    have offered := Lane.load_emitTo_le (handlingCost wild e.lanes.length) 0 e.lanes event
    have free : handlingCost wild e.lanes.length event = 0 := by
      rw [handlingCost, overflow, quiet]
      rfl
    rw [silent] at published
    rw [free] at offered
    rw [eventPrice, if_pos overflow, refusalPrice]
    simp only [List.map_nil, List.sum_nil] at published
    simp only [silent, List.foldl_nil] at published ⊢
    omega
  · have offered := Lane.load_emitTo_le (handlingCost wild e.lanes.length)
      (refusalPrice e.lanes.length) e.lanes event
    have reports : ((emitTo e.lanes event).2.map (eventPrice wild e.lanes.length)).sum =
        (emitTo e.lanes event).2.length * refusalPrice e.lanes.length := by
      apply sum_map_const
      intro report mem
      rw [eventPrice, if_pos (kind_of_mem_emitTo mem)]
    rw [reports] at published
    rw [eventPrice, if_neg overflow]
    omega

/-- Whether the panics that may come about while the ring is read are accounted for. -/
def Accounted (wild : EventKind → Bool) (e : Engine) : Prop :=
  e.pump = .receiving → ∀ l ∈ e.lanes, ∀ event ∈ l.held, event.kind ∈ l.subscriber.panicsOn →
    wild event.kind = true

theorem effort_awaitWorkers (wild : EventKind → Bool) (e : Engine) :
    e.awaitWorkers.effort wild ≤ e.laneEffort wild + 1 := by
  unfold awaitWorkers
  split <;> simp [effort, ringEffort, laneEffort, Pump.stages]

theorem effort_receive_lt (quiet : wild .subscriberOverflow = false)
    (due : e.canPump = true) : e.receive.effort wild < e.effort wild := by
  have step := e.receive_step
  generalize e.receive = after at step ⊢
  cases step with
  | nothing idle =>
      rw [idle] at due
      cases due
  | passes event cursor receiving next goesOn =>
      have less := effort_emit_lt quiet receiving next
      have pump : ({ e with cursor }.emit event).pump = e.pump := by rw [emit_eq]
      rw [effort, effort, pump]
      omega
  | ends event cursor receiving next last =>
      have less := effort_emit_lt quiet receiving next
      have closing := effort_awaitWorkers wild ({ e with cursor }.emit event).closeLanes
      have same : ({ e with cursor }.emit event).closeLanes.laneEffort wild =
          ({ e with cursor }.emit event).laneEffort wild := by
        simp only [laneEffort, closeLanes, List.length_map, List.map_map]
        rfl
      have whole : e.effort wild = e.ringEffort wild + e.laneEffort wild + 2 := by
        rw [effort, receiving]
        rfl
      omega
  | awaits closing =>
      have gone : allGone e.lanes = true := by simpa [canPump, closing] using due
      have ended : e.awaitWorkers.effort wild = e.laneEffort wild := by
        rw [awaitWorkers, if_pos gone]
        simp [effort, ringEffort, laneEffort, Pump.stages]
      have whole : e.effort wild = e.ringEffort wild + e.laneEffort wild + 1 := by
        rw [effort, closing]
        rfl
      omega

theorem effort_workLane_lt (quiet : wild .subscriberPanicked = false) (trails : e.Trails)
    (accounted : e.Accounted wild) {i : Nat} {l : Lane} {now : Instant} (there : e.lanes[i]? = some l)
    (due : l.canWork now = true) : ({ e with now }.workLane i).effort wild < e.effort wild := by
  have mem : l ∈ e.lanes := List.mem_of_getElem? there
  rcases { e with now }.workLane_cases i with ⟨missing, -⟩ | ⟨l', there', lanes, bus⟩
  · cases there.symm.trans missing
  obtain rfl : l = l' := Option.some.inj (there.symm.trans there')
  have length : ({ e with now }.workLane i).lanes.length = e.lanes.length := by
    rw [lanes]
    exact List.length_set
  have cursor : ({ e with now }.workLane i).cursor = e.cursor := by rw [workLane_eq]
  have pump : ({ e with now }.workLane i).pump = e.pump := pump_workLane _ i
  have moved := sum_map_set there (l.work now).1 (Lane.load (handlingCost wild e.lanes.length))
  rw [effort, effort, pump, ringEffort, ringEffort, laneEffort, laneEffort, pump, length, cursor,
    lanes, bus]
  by_cases receiving : e.pump = .receiving
  · -- what is published now will be read
    have pays : ∀ event ∈ l.held, event.kind ∈ l.subscriber.panicsOn →
        panicPrice e.lanes.length ≤ handlingCost wild e.lanes.length event := by
      intro event held panics
      rw [handlingCost, accounted receiving l mem event held panics]
      exact Nat.le_refl _
    have less := Lane.load_work_lt _ _ due pays
    have published := sum_unread_foldl_le (eventPrice wild e.lanes.length) (l.work now).2 trails
    have reports : ((l.work now).2.map (eventPrice wild e.lanes.length)).sum =
        (l.work now).2.length * panicPrice e.lanes.length := by
      apply sum_map_const
      intro report memReport
      have panic := ((Lane.worked_work now l).reports report memReport).1
      simp [eventPrice, handlingCost, panic, quiet, panicPrice]
    rw [reports] at published
    rw [if_pos receiving, if_pos receiving]
    dsimp only
    omega
  · have less := Lane.load_work_lt (handlingCost wild e.lanes.length) 0 due
      (fun event _ _ => Nat.zero_le (handlingCost wild e.lanes.length event))
    rw [if_neg receiving, if_neg receiving]
    dsimp only
    omega

/-! ## 4. Subscribers that do not feed themselves -/

/-- Where panics stay accounted for, the turns come to an end. -/
theorem comesToRest_of_accounted (wild : EventKind → Bool) {P : Engine → Prop}
    (feeds : ∀ e e', P e → Feeds e e' → P e')
    (panics : wild .subscriberPanicked = false) (refusals : wild .subscriberOverflow = false)
    (trails : ∀ e, P e → e.Trails) (accounted : ∀ e, P e → e.Accounted wild) (he : P e) :
    e.ComesToRest := by
  induction bound : e.effort wild using Nat.strongRecOn generalizing e with
  | ind n ih =>
      apply Acc.intro e
      intro e' step
      have less : e'.effort wild < e.effort wild := by
        cases step with
        | pump due => exact effort_receive_lt refusals due
        | work i l now later there due =>
            exact effort_workLane_lt panics (trails e he) (accounted e he) there due
      rw [bound] at less
      exact ih (e'.effort wild) less (step.keeps feeds he) rfl

theorem comesToRest_of_kinds {kinds : List EventKind} (trails : e.Trails)
    (within : ∀ s ∈ e.subscribers, s.panicsOn ⊆ kinds) (panics : .subscriberPanicked ∉ kinds)
    (refusals : .subscriberOverflow ∉ kinds) : e.ComesToRest := by
  let P (e : Engine) : Prop := e.Trails ∧ ∀ s ∈ e.subscribers, s.panicsOn ⊆ kinds
  have feeds (e e' : Engine) (h : P e) (step : Feeds e e') : P e' := by
    refine ⟨h.1.feeds step, ?_⟩
    rw [step.subscribers]
    exact h.2
  refine comesToRest_of_accounted (fun k => decide (k ∈ kinds)) feeds
    (decide_eq_false panics) (decide_eq_false refusals) (fun _ h => h.1) ?_ ⟨trails, within⟩
  intro e h _ l mem event _ panicsOver
  exact decide_eq_true (h.2 l.subscriber (List.mem_map_of_mem mem) panicsOver)

/-- Subscribers that panic over reports of panics and over the end marker at most. -/
theorem Guarded.comesToRest (h : e.Guarded) (trails : e.Trails) : e.ComesToRest := by
  let P (e : Engine) : Prop := e.Trails ∧ e.Guarded
  have feeds (e e' : Engine) (h : P e) (step : Feeds e e') : P e' :=
    ⟨h.1.feeds step, h.2.feeds step⟩
  refine comesToRest_of_accounted (fun _ => false) feeds rfl rfl (fun _ h => h.1) ?_
    ⟨trails, h⟩
  intro e h receiving l mem event held panicsOver
  have tame := h.2.tame (.inl receiving) l mem event held
  have wild := h.2.tempered l.subscriber (List.mem_map_of_mem mem) event.kind panicsOver
  exact wild.symm.trans tame

/-! ## 5. Endless runs -/

/-- An engine with a single lane whose pump receives, as the pump and the worker see it: the lane,
the events that wait in the ring, and how many the ring holds. -/
structure Shows (e : Engine) (l : Lane) (events : List Event) (capacity : Nat) : Prop where
  receiving : e.pump = .receiving
  trails : e.Trails
  lanes : e.lanes = [l]
  unread : e.bus.unread e.cursor = events
  capacity : e.bus.capacity = capacity

theorem Shows.receive {l : Lane} {event : Event} {rest : List Event} {capacity : Nat}
    (h : Shows e l (event :: rest) capacity) (goesOn : event.kind ≠ .allStoppedWithin) :
    ∃ e', FeedStep e e' ∧ Shows e' (l.offer event) (rest ++ (l.offerReport? event).toList) capacity := by
  have room := e.bus.length_unread_le e.cursor
  rw [h.unread, List.length_cons] at room
  cases next : e.bus.next? e.cursor with
  | none =>
      have nothing := Ring.unread_eq_nil_of_next? next
      rw [h.unread] at nothing
      cases nothing
  | some found =>
      obtain ⟨event', cursor⟩ := found
      have read := Ring.unread_of_next? next
      rw [h.unread] at read
      obtain ⟨rfl, unread⟩ := List.cons.inj read
      have due : e.canPump = true := by
        rw [canPump, h.receiving]
        simp [next]
      have passes : e.receive = { e with cursor }.emit event := by
        rw [Engine.receive, h.receiving]
        simp [next, goesOn]
      have lanes : emitTo e.lanes event = ([l.offer event], (l.offerReport? event).toList) := by
        rw [h.lanes, emitTo]
        cases report : l.offerReport? event <;> simp [report]
      have few : ((l.offerReport? event).toList).length ≤ 1 := by
        cases l.offerReport? event <;> simp
      have waits := unread_foldl_of_room (l.offerReport? event).toList
        (Ring.le_sent_of_next? next) (by rw [← unread]; omega)
      refine ⟨e.receive, .pump due, ?_⟩
      rw [passes, emit_eq]
      refine ⟨h.receiving, ?_, ?_, ?_, ?_⟩
      · exact Nat.le_trans (Ring.le_sent_of_next? next) (sent_le_foldl _ _)
      · exact congrArg Prod.fst lanes
      · rw [← unread] at waits
        rw [← waits]
        exact congrArg (fun lanes => (List.foldl Ring.push e.bus lanes.2).unread cursor) lanes
      · exact (capacity_foldl _ _).trans h.capacity

theorem Shows.work {l : Lane} {events : List Event} {capacity : Nat} (h : Shows e l events capacity)
    (now : Instant) (later : e.now.ns ≤ now.ns) (due : l.canWork now = true)
    (room : events.length + (l.work now).2.length ≤ capacity) :
    ∃ e', FeedStep e e' ∧ Shows e' (l.work now).1 (events ++ (l.work now).2) capacity ∧
      e'.now = now := by
  have there : e.lanes[0]? = some l := by
    rw [h.lanes]
    rfl
  have worked : TaskEngine.workLane now e.lanes 0 = ([(l.work now).1], (l.work now).2) := by
    rw [h.lanes]
    rfl
  have waits := unread_foldl_of_room (l.work now).2 h.trails (by
    rw [h.unread, h.capacity]
    exact room)
  refine ⟨{ e with now }.workLane 0, .work 0 l now later there due, ?_, ?_⟩
  · rw [workLane_eq]
    refine ⟨h.receiving, ?_, ?_, ?_, ?_⟩
    · exact Nat.le_trans h.trails (sent_le_foldl _ _)
    · exact congrArg Prod.fst worked
    · rw [h.unread] at waits
      rw [← waits]
      exact congrArg (fun lanes => (List.foldl Ring.push e.bus lanes.2).unread e.cursor) worked
    · exact (capacity_foldl _ _).trans h.capacity
  · rw [workLane_eq]

/-- The subscriber panics over every event over which it may, and gives its name then. -/
structure Touchy (s : Subscriber) : Prop where
  temper : ∀ number event, s.temper number event = .panics false
  named : s.losesName = false

theorem Touchy.reception {s : Subscriber} (touchy : Touchy s) {event : Event}
    (panics : event.kind ∈ s.panicsOn) (number : Nat) : s.reception number event = .panicked := by
  simp only [Subscriber.reception, panics, touchy.temper, touchy.named, Bool.false_and, if_true,
    Bool.false_eq_true, if_false]

theorem Touchy.timeFor {s : Subscriber} (touchy : Touchy s) (event : Event) (number : Nat) :
    s.timeFor number event = s.delay := by
  unfold Subscriber.timeFor
  by_cases panics : event.kind ∈ s.panicsOn
  · rw [touchy.reception panics, if_neg (fun refused => nomatch refused)]
  · rw [Subscriber.reception, if_neg panics, if_neg (fun refused => nomatch refused)]

/-- The subscriber is slow, and panics over the event that it is busy with and over reports of its
own panics; nothing else is there for it. -/
structure Echoes (l : Lane) : Prop where
  isOpen : l.isOpen = true
  queue : l.queue = []
  busy : ∃ event due, l.worker = .handling event due ∧ event.kind ∈ l.subscriber.panicsOn
  echoes : .subscriberPanicked ∈ l.subscriber.panicsOn
  slow : l.subscriber.delay.isZero = false
  touchy : Touchy l.subscriber

theorem Shows.echo {l : Lane} {capacity : Nat} (h : Shows e l [] capacity) (room : 0 < capacity)
    (echoes : Echoes l) : ∃ e' l', Shows e' l' [] capacity ∧ Echoes l' ∧
      Relation.TransGen FeedStep e e' := by
  obtain ⟨event, due, busy, panics⟩ := echoes.busy
  have late : due.isDue ⟨max e.now.ns due.ns⟩ = true :=
    (Instant.isDue_iff ..).mpr (Nat.le_max_right ..)
  let report : Event := .subscriberPanic l.subscriber.name (l.subscriber.panicText event)
  have panicked : l.work ⟨max e.now.ns due.ns⟩ =
      ({ l with queue := [], worker := .waiting }, [report]) := by
    simp [Lane.work, busy, late, Lane.delivered, echoes.touchy.reception panics, Lane.isGone,
      Lane.workThrough, echoes.queue, echoes.isOpen, report]
  obtain ⟨first, step, shows, now⟩ := h.work _ (Nat.le_max_left ..)
    (by rw [Lane.canWork, busy]; exact late) (by rw [panicked]; exact room)
  rw [panicked] at shows
  obtain ⟨second, step', shows'⟩ := shows.receive (by rintro ⟨⟩)
  have space : Lane.refusal? { l with queue := [], worker := .waiting } = none := by
    have capacity : ¬Lane.capacity { l with queue := [], worker := .waiting } ≤ 0 := by
      simp only [Lane.capacity]
      omega
    simp [Lane.refusal?, Lane.isGone, capacity]
  rw [Lane.offerReport?, space, Lane.offer_of_room space] at shows'
  have taken := echoes.slow
  have time := echoes.touchy.timeFor report
  obtain ⟨third, step'', shows'', -⟩ := shows'.work _ (Nat.le_refl _) (by simp [Lane.canWork])
    (by simp [Lane.work, Lane.workThrough, time, taken, report])
  simp only [Lane.work, Lane.workThrough, List.nil_append, time, taken, Bool.false_eq_true, if_false,
    Option.map_none, ite_self, Option.toList_none, List.append_nil] at shows''
  refine ⟨third, _, shows'', ?_, (Relation.TransGen.single step).tail step' |>.tail step''⟩
  exact ⟨echoes.isOpen, rfl, ⟨report, _, rfl, echoes.echoes⟩, echoes.echoes, echoes.slow,
    echoes.touchy⟩

/-- The subscriber is slow, has a single place and panics over reports of refusals; it is busy with
one, and another one takes the place. -/
structure Relays (l : Lane) : Prop where
  isOpen : l.isOpen = true
  single : l.capacity = 1
  busy : ∃ event due, l.worker = .handling event due ∧ event.kind = .subscriberOverflow
  queue : ∃ event, l.queue = [event] ∧ event.kind = .subscriberOverflow
  echoes : .subscriberOverflow ∈ l.subscriber.panicsOn
  slow : l.subscriber.delay.isZero = false
  touchy : Touchy l.subscriber

/-- It panics; by the time the report is passed on, a third report of a refusal has taken the place,
and so the report of the panic is refused. -/
theorem Shows.relay {l : Lane} {refusal : Event} {capacity : Nat} (h : Shows e l [refusal] capacity)
    (overflow : refusal.kind = .subscriberOverflow) (room : 1 < capacity) (relays : Relays l) :
    ∃ e' l' refusal', Shows e' l' [refusal'] capacity ∧ refusal'.kind = .subscriberOverflow ∧
      Relays l' ∧ Relation.TransGen FeedStep e e' := by
  obtain ⟨event, due, busy, panics⟩ := relays.busy
  obtain ⟨waiting, queue, waits⟩ := relays.queue
  have late : due.isDue ⟨max e.now.ns due.ns⟩ = true :=
    (Instant.isDue_iff ..).mpr (Nat.le_max_right ..)
  let now : Instant := ⟨max e.now.ns due.ns⟩
  let report : Event := .subscriberPanic l.subscriber.name (l.subscriber.panicText event)
  let next : Lane := { l with
    queue := []
    handled := (now, waiting) :: l.handled
    worker := .handling waiting (now.later l.subscriber.delay) }
  have met (number : Nat) : l.subscriber.reception number event = .panicked :=
    relays.touchy.reception (panics ▸ relays.echoes) number
  have panicked : l.work now = (next, [report]) := by
    simp [Lane.work, busy, late, Lane.delivered, met, Lane.isGone, Lane.workThrough, queue,
      relays.touchy.timeFor, relays.slow, report, next, now]
  obtain ⟨first, step, shows, -⟩ := h.work now (Nat.le_max_left ..)
    (by rw [Lane.canWork, busy]; exact late) (by rw [panicked]; exact room)
  rw [panicked, List.singleton_append] at shows
  -- the third report of a refusal takes the place
  obtain ⟨second, step', shows'⟩ := shows.receive (by rw [overflow]; decide)
  have space : next.refusal? = none := by
    have single : next.capacity = 1 := relays.single
    simp [Lane.refusal?, Lane.isGone, single, next]
  rw [Lane.offerReport?, if_pos overflow, Lane.offer_of_room space] at shows'
  -- the report of the panic finds none
  obtain ⟨third, step'', shows''⟩ := shows'.receive (by rintro ⟨⟩)
  have full : Lane.refusal? { next with
      queue := next.queue ++ [refusal], accepted := refusal :: next.accepted } = some .full := by
    have single : Lane.capacity { next with
        queue := next.queue ++ [refusal], accepted := refusal :: next.accepted } = 1 := relays.single
    simp only [Lane.refusal?, Lane.isGone, single, next]
    rfl
  rw [Lane.offerReport?, Lane.offer_of_refused full, full] at shows''
  refine ⟨third, _, _, shows'', rfl, ?_,
    ((Relation.TransGen.single step).tail step').tail step''⟩
  exact ⟨relays.isOpen, relays.single, ⟨waiting, _, rfl, waits⟩, ⟨refusal, rfl, overflow⟩,
    relays.echoes, relays.slow, relays.touchy⟩

theorem not_comesToRest_of_echoes {l : Lane} {capacity : Nat} (h : Shows e l [] capacity)
    (room : 0 < capacity) (echoes : Echoes l) : ¬e.ComesToRest := by
  refine not_comesToRest (P := fun e => ∃ l, Shows e l [] capacity ∧ Echoes l) ?_ ⟨l, h, echoes⟩
  rintro e ⟨l, h, echoes⟩
  obtain ⟨e', l', shows, again, back⟩ := h.echo room echoes
  exact ⟨e', ⟨l', shows, again⟩, back⟩

theorem not_comesToRest_of_relays {l : Lane} {refusal : Event} {capacity : Nat}
    (h : Shows e l [refusal] capacity) (overflow : refusal.kind = .subscriberOverflow)
    (room : 1 < capacity) (relays : Relays l) : ¬e.ComesToRest := by
  refine not_comesToRest (P := fun e => ∃ l refusal, Shows e l [refusal] capacity ∧
    refusal.kind = .subscriberOverflow ∧ Relays l) ?_ ⟨l, refusal, h, overflow, relays⟩
  rintro e ⟨l, refusal, h, overflow, relays⟩
  obtain ⟨e', l', refusal', shows, overflow', again, back⟩ := h.relay overflow room relays
  exact ⟨e', ⟨l', refusal', shows, overflow', again⟩, back⟩

/-! ## 6. Which subscribers feed themselves -/

/-- A history in which an event of the kind is published last; there is one for every ordinary
kind. -/
def leadingTo : EventKind → List Move
  | .managerStarted => [.start (.named "t")]
  | .taskAdded => [.start (.named "t"), .add (.onDemand .trivial)]
  | .shutdownRequested => [.start (.named "t"), .shutdown (.token (.named "never")) .zero]
  | .graceExceeded =>
      [.start (.named "t"), .cancel (.named "now"), .shutdown (.token (.named "now")) .zero]
  | .runSkipped => [.add (.onDemand .trivial), .start (.named "t"), .request 0, .request 0]
  | .runMerged =>
      [.add ((Spec.onDemand .trivial).withOverlap .merge), .start (.named "t"), .request 0, .request 0]
  | .tickScheduled => [.add (.every .trivial (.ofParts 1 0)), .start (.named "t"), .schedule 0]
  | kind => [.add (.onDemand .trivial), .start (.named "t"), .request 0, .announce ⟨0, 1⟩ { kind }]

def slowSubscriber (panicsOn : List EventKind) : Subscriber :=
  { name := "s", capacity := 1, delay := .ofParts 1 0, panicsOn }

theorem admits_leadingTo {k : EventKind} (ordinary : k.isOrdinary = true) :
    (create { busCapacity := 1 } [slowSubscriber [.subscriberPanicked, k]]).admits
      (leadingTo k ++ [.receive, .work 0]) = true := by
  cases k <;> first | decide | cases ordinary

/-- The subscriber panics over an ordinary event, and then over the report of that. -/
theorem echoes_leadingTo {k : EventKind} (ordinary : k.isOrdinary = true) :
    ∃ l, Shows ((create { busCapacity := 1 } [slowSubscriber [.subscriberPanicked, k]]).after
      (leadingTo k ++ [.receive, .work 0])) l [] 1 ∧ Echoes l := by
  cases k <;> first
    | exact ⟨_, ⟨rfl, Nat.le_refl _, rfl, rfl, rfl⟩, rfl, rfl, ⟨_, _, rfl, by decide⟩, by decide, rfl,
        fun _ _ => rfl, rfl⟩
    | cases ordinary

/-- A history that fills the lane of a slow subscriber with reports of its own refusals. -/
def crowdedHistory : List Move :=
  [.add (.onDemand .trivial), .add (.onDemand .trivial), .add (.onDemand .trivial),
    .add (.onDemand .trivial), .start (.named "t"), .receive, .work 0, .receive, .receive, .receive,
    .receive, .clock ⟨1000000000⟩, .work 0, .receive, .clock ⟨2000000000⟩, .work 0, .receive]

theorem relays_crowdedHistory :
    ∃ l refusal, Shows ((create { busCapacity := 8 } [slowSubscriber [.subscriberOverflow]]).after
      crowdedHistory) l [refusal] 8 ∧ refusal.kind = .subscriberOverflow ∧ Relays l :=
  ⟨_, _, ⟨rfl, by unfold Trails; decide, rfl, rfl, rfl⟩, rfl,
    rfl, rfl, ⟨_, _, rfl, rfl⟩, ⟨_, rfl, rfl⟩, by decide, rfl, fun _ _ => rfl, rfl⟩

/-- **The way from the ring to the lanes and back always comes to rest if no subscriber panics over
reports of refusals, and if none panics over reports of panics unless nothing but the end marker is
panicked over besides.  For all other kinds of panics it need not.** -/
theorem comes_to_rest_iff (kinds : List EventKind) :
    (∀ (config : Config) (subs : List Subscriber) (moves : List Move),
      (∀ s ∈ subs, s.panicsOn ⊆ kinds) → (create config subs).admits moves = true →
        ((create config subs).after moves).ComesToRest) ↔
    .subscriberOverflow ∉ kinds ∧
      (.subscriberPanicked ∈ kinds → ∀ k ∈ kinds, k = .subscriberPanicked ∨ k = .allStoppedWithin) := by
  constructor
  · intro rests
    have noOverflow : .subscriberOverflow ∉ kinds := by
      intro overflow
      obtain ⟨l, refusal, shows, isRefusal, relays⟩ := relays_crowdedHistory
      refine not_comesToRest_of_relays shows isRefusal (by decide) relays (rests _ _ _ ?_ (by decide))
      intro s hs
      rw [List.mem_singleton.mp hs]
      exact List.cons_subset.mpr ⟨overflow, List.nil_subset _⟩
    refine ⟨noOverflow, ?_⟩
    intro panicked k mem
    by_contra other
    have ordinary : k.isOrdinary = true := by
      obtain ⟨noPanic, noEnd⟩ := not_or.mp other
      cases k <;> first | rfl | exact absurd mem noOverflow | exact absurd rfl noPanic | exact absurd rfl noEnd
    obtain ⟨l, shows, echoes⟩ := echoes_leadingTo ordinary
    refine not_comesToRest_of_echoes shows (by decide) echoes
      (rests _ _ _ ?_ (admits_leadingTo ordinary))
    intro s hs
    rw [List.mem_singleton.mp hs]
    exact List.cons_subset.mpr ⟨panicked, List.cons_subset.mpr ⟨mem, List.nil_subset _⟩⟩
  · rintro ⟨noOverflow, noEcho⟩ config subs moves within admitted
    have trails := feeds_after (fun _ _ h => Trails.feeds h) admitted (trails_create config subs)
    by_cases panicked : .subscriberPanicked ∈ kinds
    · have tempered : ∀ s ∈ subs, ∀ k ∈ s.panicsOn, k.isTame = false := by
        intro s hs k hk
        rcases noEcho panicked k (within s hs hk) with rfl | rfl <;> rfl
      exact (feeds_after (fun _ _ h => Guarded.feeds h) admitted
        (guarded_create config tempered)).comesToRest trails
    · refine comesToRest_of_kinds trails ?_ panicked noOverflow
      rw [subscribers_after admitted, subscribers_create]
      exact within

/-- A subscriber that takes a second, and panics over the start of the engine and over reports of
panics. -/
def startled : Subscriber :=
  { name := "s", delay := .ofMilliseconds 1000, panicsOn := [.managerStarted, .subscriberPanicked] }

theorem shows_startled :
    ∃ l, Shows ((create { busCapacity := 16 } [startled]).after [.start (.named "t"), .receive]) l []
      16 ∧ l.canWork .zero = true ∧ Echoes (l.work .zero).1 ∧ (l.work .zero).2 = [] :=
  ⟨_, ⟨rfl, by unfold Trails; decide, rfl, rfl, rfl⟩, by decide,
    ⟨rfl, rfl, ⟨_, _, rfl, by decide⟩, by decide, rfl, fun _ _ => rfl, rfl⟩, rfl⟩

theorem startled_never_at_rest :
    (create { busCapacity := 16 } [startled]).admits [.start (.named "t")] = true ∧
      ¬((create { busCapacity := 16 } [startled]).after [.start (.named "t")]).ComesToRest := by
  refine ⟨by decide, ?_⟩
  intro rests
  obtain ⟨l, shows, due, echoes, silent⟩ := shows_startled
  have rests' := rests.inv (.pump (by decide))
  obtain ⟨e', taken, shows', -⟩ := shows.work .zero (by decide) due (by rw [silent]; decide)
  rw [silent] at shows'
  exact not_comesToRest_of_echoes shows' (by decide) echoes (rests'.inv taken)

end Engine

end TaskEngine
