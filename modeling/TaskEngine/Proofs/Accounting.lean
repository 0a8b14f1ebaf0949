/-
  TaskEngine/Proofs/Accounting.lean
  =================================
  **Lanes account for every event.**

  Every event that is emitted is offered to every lane.  A lane takes it or refuses it; what it takes
  waits in its queue, is given to its subscriber in order, and is dealt with.  Nothing else becomes of
  an event, and what is reported tells of all of it: one overflow for each refusal, unless the refused
  event is such a report itself, and one panic for each panic.

  So it is as long as the worker survives what its subscriber makes of the events.  A subscriber that
  panics at the call gets the worker lost: that panic is not reported, and what was in the queue is
  never dealt with (`Fanout.lanes_account_iff`).

  Lanes do not know of each other.  What happens to a fan-out happens to each of its lanes on its own
  (`Fanout.getElem?_lanes_after`), and what the fan-out reports are the reports of its lanes, in some
  order (`Fanout.reported_perm`).  So the accounts of a fan-out are those of its lanes.
-/
import Mathlib.Data.List.Perm.Basic
import TaskEngine.Fanout
import TaskEngine.Proofs.Fates

namespace TaskEngine

namespace Lane

/-! ## 1. One lane -/

/-- One thing that happens to a lane. -/
inductive Act where
  | offer (event : Event)
  | work (now : Instant)
  | close

def act (l : Lane) : Act → Lane
  | .offer e => l.offer e
  | .work now => (l.work now).1
  | .close => l.close

def after (l : Lane) (acts : List Act) : Lane := acts.foldl act l

/-- Whether events are only offered to the lane while it is open. -/
def admits : Lane → List Act → Bool
  | _, [] => true
  | l, .offer e :: acts => l.isOpen && (l.offer e).admits acts
  | l, a :: acts => (l.act a).admits acts

def Act.offered? : Act → Option Event
  | offer e => some e
  | work _ | close => none

/-- What the lane refuses, and why. -/
def refusals (l : Lane) : Act → List (Event × Refusal)
  | .offer e => (l.refusal?.map (e, ·)).toList
  | .work _ | .close => []

def reports (l : Lane) : Act → List Event
  | .offer e => (l.offerReport? e).toList
  | .work now => (l.work now).2
  | .close => []

/-- The events that the lane refuses, in order, each with the reason. -/
def refused : Lane → List Act → List (Event × Refusal)
  | _, [] => []
  | l, a :: acts => l.refusals a ++ (l.act a).refused acts

/-- What is reported about the lane, in order. -/
def reported : Lane → List Act → List Event
  | _, [] => []
  | l, a :: acts => l.reports a ++ (l.act a).reported acts

theorem reported_append (l : Lane) (first second : List Act) :
    l.reported (first ++ second) = l.reported first ++ (l.after first).reported second := by
  induction first generalizing l with
  | nil => rfl
  | cons a first ih =>
    simp only [List.cons_append, reported, ih, List.append_assoc]
    rfl

end Lane

namespace Subscriber

/-- The reports of refusals: none for refused reports of refusals. -/
def overflowReports (s : Subscriber) (refused : List (Event × Refusal)) : List Event :=
  (refused.filter (·.1.kind != .subscriberOverflow)).map fun p => .overflow s.name p.2.label

theorem overflowReports_append (s : Subscriber) (first second : List (Event × Refusal)) :
    s.overflowReports (first ++ second) = s.overflowReports first ++ s.overflowReports second := by
  simp [overflowReports]

end Subscriber

namespace Lane

variable {l l' : Lane}

/-- What is accounted for between two states of a lane: of what was offered, some was taken, in
order, and the rest was refused; and what was reported tells of every refusal and of every panic that
the worker has survived. -/
structure Accounts (l l' : Lane) (offered : List Event) (refused : List (Event × Refusal))
    (reports : List Event) : Prop where
  fate : l'.Fated
  subscriber : l'.subscriber = l.subscriber
  /-- A lane that is exact has always been, and has refused events for being full only. -/
  full : l'.Exact → l.Exact ∧ ∀ p ∈ refused, p.2 = .full
  taken : ∃ taken, l'.accepted.reverse = l.accepted.reverse ++ taken ∧ taken.Sublist offered ∧
    (taken ++ refused.map (·.1)).Perm offered
  told : ∃ panics, l.subscriber.toldPanics l'.dealt = l.subscriber.toldPanics l.dealt ++ panics ∧
    reports.Perm (panics ++ l.subscriber.overflowReports refused)

theorem accounts_self (fate : l.Fated) : Accounts l l [] [] [] := by
  constructor
  · exact fate
  · rfl
  · exact fun exact => ⟨exact, fun _ mem => absurd mem List.not_mem_nil⟩
  · exact ⟨[], by simp⟩
  · exact ⟨[], by simp [Subscriber.overflowReports]⟩

theorem perm_exchange (a b c d : List Event) : (a ++ b ++ (c ++ d)).Perm (a ++ c ++ (b ++ d)) := by
  apply List.perm_iff_count.mpr
  intro e
  simp only [List.count_append]
  omega

theorem Accounts.trans {l'' : Lane} {offered reports offered' reports' : List Event}
    {refused refused' : List (Event × Refusal)} (first : Accounts l l' offered refused reports)
    (next : Accounts l' l'' offered' refused' reports') :
    Accounts l l'' (offered ++ offered') (refused ++ refused') (reports ++ reports') := by
  constructor
  · exact next.fate
  · exact next.subscriber.trans first.subscriber
  · intro exact
    obtain ⟨exact', full'⟩ := next.full exact
    obtain ⟨exact, full⟩ := first.full exact'
    exact ⟨exact, List.forall_mem_append.mpr ⟨full, full'⟩⟩
  · obtain ⟨taken, is, order, all⟩ := first.taken
    obtain ⟨taken', is', order', all'⟩ := next.taken
    refine ⟨taken ++ taken', ?_, order.append order', ?_⟩
    · rw [is', is, List.append_assoc]
    · rw [List.map_append]
      exact (perm_exchange ..).trans (all.append all')
  · obtain ⟨panics, is, tells⟩ := first.told
    obtain ⟨panics', is', tells'⟩ := next.told
    rw [first.subscriber] at is' tells'
    refine ⟨panics ++ panics', ?_, ?_⟩
    · rw [is', is, List.append_assoc]
    · rw [Subscriber.overflowReports_append]
      exact (tells.append tells').trans (perm_exchange ..)

/-- An event that is offered is taken, or it is refused and the refusal is reported. -/
theorem accounts_offer (fate : l.Fated) (isOpen : l.isOpen = true) (e : Event) :
    Accounts l (l.offer e) [e] (l.refusals (.offer e)) (l.reports (.offer e)) := by
  cases room : l.refusal? with
  | none =>
    have refusals : l.refusals (.offer e) = [] := by simp [refusals, room]
    have reports : l.reports (.offer e) = [] := by simp [reports, offerReport?, room]
    have exact : l.Exact := fate.resolve_right fun lost => by simp [refusal?, lost.gone] at room
    rw [refusals, reports]
    constructor
    · exact .inl (exact.offer e)
    · exact l.offer_subscriber e
    · exact fun _ => ⟨exact, fun _ mem => absurd mem List.not_mem_nil⟩
    · rw [offer_of_room room]
      exact ⟨[e], by simp⟩
    · rw [offer_of_room room]
      exact ⟨[], (List.append_nil _).symm, by simp [Subscriber.overflowReports]⟩
  | some r =>
    have refusals : l.refusals (.offer e) = [(e, r)] := by simp [refusals, room]
    have reports : l.reports (.offer e) = l.subscriber.overflowReports [(e, r)] := by
      by_cases overflow : e.kind = .subscriberOverflow
      · simp [reports, offerReport?, overflow, Subscriber.overflowReports]
      · simp [reports, offerReport?, overflow, room, Subscriber.overflowReports]
    rw [refusals, reports, offer_of_refused room]
    constructor
    · exact fate
    · rfl
    · intro exact
      refine ⟨exact, fun p mem => ?_⟩
      rw [List.mem_singleton.mp mem]
      exact ((exact.refusal?_eq_some_iff isOpen r).mp room).1
    · exact ⟨[], by simp⟩
    · exact ⟨[], (List.append_nil _).symm, List.Perm.refl _⟩

theorem accounts_work (fate : l.Fated) (now : Instant) :
    Accounts l (l.work now).1 [] [] (l.work now).2 := by
  rcases fate with exact | lost
  · have turned := exact.work now
    constructor
    · exact turned.fate
    · exact turned.subscriber
    · exact fun _ => ⟨exact, fun _ mem => absurd mem List.not_mem_nil⟩
    · exact ⟨[], by simp [turned.accepted]⟩
    · exact ⟨_, turned.told, by simp [Subscriber.overflowReports]⟩
  · rw [work_of_isGone now lost.gone]
    exact accounts_self (.inr lost)

theorem accounts_close (fate : l.Fated) : Accounts l l.close [] [] [] := by
  constructor
  · exact fate.close
  · rfl
  · intro exact
    exact ⟨fate.resolve_right fun lost => lost.close.not_exact exact,
      fun _ mem => absurd mem List.not_mem_nil⟩
  · exact ⟨[], by simp [Lane.close]⟩
  · exact ⟨[], (List.append_nil _).symm, by simp [Subscriber.overflowReports]⟩

/-- **A lane is accounted for**, whatever happens to it. -/
theorem accounts {acts : List Act} (fate : l.Fated) (admitted : l.admits acts = true) :
    Accounts l (l.after acts) (acts.filterMap (·.offered?)) (l.refused acts) (l.reported acts) := by
  induction acts generalizing l with
  | nil => exact accounts_self fate
  | cons a acts ih =>
    cases a with
    | offer e =>
      obtain ⟨isOpen, rest⟩ := Bool.and_eq_true_iff.mp admitted
      have now := accounts_offer fate isOpen e
      exact now.trans (ih now.fate rest)
    | work at_ =>
      have now := accounts_work fate at_
      exact now.trans (ih now.fate admitted)
    | close =>
      have now := accounts_close fate
      exact now.trans (ih now.fate admitted)

end Lane

/-! ## 2. All lanes together -/

namespace Fanout

variable {f : Fanout} {i : Nat}

/-- One thing that happens to a fan-out: time passes, an event is emitted, a worker takes a turn, or
the lanes are closed. -/
inductive Act where
  | clock (now : Instant)
  | emit (event : Event)
  | work (lane : Nat)
  | close

def act (f : Fanout) : Act → Fanout
  | .clock now => { f with now }
  | .emit e => f.emit e
  | .work i => f.turn i
  | .close => f.close

def after (f : Fanout) (acts : List Act) : Fanout := acts.foldl act f

/-- Whether events are only emitted while the fan-out is open. -/
def admits : Fanout → List Act → Bool
  | _, [] => true
  | f, .emit e :: acts => f.isOpen && (f.emit e).admits acts
  | f, a :: acts => (f.act a).admits acts

def Act.emitted? : Act → Option Event
  | emit e => some e
  | clock _ | work _ | close => none

def emitted (acts : List Act) : List Event := acts.filterMap (·.emitted?)

def reports (f : Fanout) : Act → List Event
  | .emit e => (emitTo f.lanes e).2
  | .work i => (workLane f.now f.lanes i).2
  | .clock _ | .close => []

/-- What is reported, in order. -/
def reported : Fanout → List Act → List Event
  | _, [] => []
  | f, a :: acts => f.reports a ++ (f.act a).reported acts

/-- What something that happens to the fan-out is for lane `i`. -/
def ofLane (f : Fanout) (i : Nat) : Act → List Lane.Act
  | .clock _ => []
  | .emit e => [.offer e]
  | .work j => if j = i then [.work f.now] else []
  | .close => [.close]

def laneActs (f : Fanout) (i : Nat) : List Act → List Lane.Act
  | [] => []
  | a :: acts => f.ofLane i a ++ (f.act a).laneActs i acts

/-- The events that lane `i` refuses, each with the reason. -/
def refusedBy (f : Fanout) (i : Nat) (acts : List Act) : List (Event × Refusal) :=
  ((f.lanes[i]?).map (·.refused (f.laneActs i acts))).getD []

/-- What is reported about lane `i`. -/
def reportedBy (f : Fanout) (i : Nat) (acts : List Act) : List Event :=
  ((f.lanes[i]?).map (·.reported (f.laneActs i acts))).getD []

/-- **Lanes do not know of each other**: what happens to the fan-out happens to each lane by itself. -/
theorem getElem?_lanes_act (f : Fanout) (i : Nat) (a : Act) :
    (f.act a).lanes[i]? = (f.lanes[i]?).map (·.after (f.ofLane i a)) := by
  cases a with
  | clock now => simp [act, ofLane, Lane.after]
  | emit e => simp [act, emit, publishAll, emitTo, ofLane, Lane.after, Lane.act]
  | close => simp [act, close, ofLane, Lane.after, Lane.act]
  | work j =>
    simp only [act, turn, publishAll, workLane, ofLane]
    by_cases same : j = i
    · subst same
      cases at_ : f.lanes[j]? with
      | none => simp [at_]
      | some l =>
        have below : j < f.lanes.length := (List.getElem?_eq_some_iff.mp at_).1
        simp [Lane.after, Lane.act, below]
    · simp only [same, if_false]
      cases f.lanes[j]? with
      | none => simp [Lane.after]
      | some l => simp [Lane.after, List.getElem?_set_ne same]

theorem getElem?_lanes_after (f : Fanout) (i : Nat) (acts : List Act) :
    (f.after acts).lanes[i]? = (f.lanes[i]?).map (·.after (f.laneActs i acts)) := by
  induction acts generalizing f with
  | nil => simp [after, laneActs, Lane.after]
  | cons a acts ih =>
    have rest := ih (f.act a)
    rw [getElem?_lanes_act, Option.map_map] at rest
    have joined : ∀ l : Lane, l.after (f.laneActs i (a :: acts)) =
        (l.after (f.ofLane i a)).after ((f.act a).laneActs i acts) := by
      intro l
      exact List.foldl_append ..
    simp only [joined]
    exact rest

theorem length_lanes_act (f : Fanout) (a : Act) : (f.act a).lanes.length = f.lanes.length := by
  cases a with
  | clock now => rfl
  | emit e => simp [act, emit, publishAll, emitTo]
  | close => simp [act, close]
  | work j =>
    simp only [act, turn, publishAll, workLane]
    cases f.lanes[j]? with
    | none => rfl
    | some l => simp

/-! ### What is reported -/

theorem bus_after (f : Fanout) (acts : List Act) :
    (f.after acts).bus = (f.reported acts).foldl Ring.push f.bus := by
  induction acts generalizing f with
  | nil => rfl
  | cons a acts ih =>
    have now : (f.act a).bus = (f.reports a).foldl Ring.push f.bus := by cases a <;> rfl
    show ((f.act a).after acts).bus = _
    rw [ih, now, reported, List.foldl_append]

theorem flatMap_range_getElem? {α : Type} (entries : List α) (g : α → List Event) :
    (List.range entries.length).flatMap (fun i => ((entries[i]?).map g).getD []) =
      entries.flatMap g := by
  induction entries with
  | nil => rfl
  | cons a rest ih =>
    simp only [List.length_cons, List.range_succ_eq_map, List.flatMap_cons, List.flatMap_map]
    rw [← ih]
    simp

theorem flatMap_range_single (n j : Nat) (events : List Event) :
    (List.range n).flatMap (fun i => if j = i then events else []) =
      if j < n then events else [] := by
  induction n with
  | zero => rfl
  | succ n ih =>
    simp only [List.range_succ, List.flatMap_append, ih, List.flatMap_singleton]
    by_cases last : j = n
    · simp [last]
    · by_cases below : j < n
      · simp [last, below, Nat.lt_succ_of_lt below]
      · have above : ¬ j < n + 1 := by omega
        simp [last, below, above]

theorem reportedBy_cons (f : Fanout) (i : Nat) (a : Act) (acts : List Act) :
    f.reportedBy i (a :: acts) = f.reportedBy i [a] ++ (f.act a).reportedBy i acts := by
  simp only [reportedBy, getElem?_lanes_act]
  cases f.lanes[i]? with
  | none => rfl
  | some l =>
    simp only [laneActs, Option.map_some, Option.getD_some, List.append_nil]
    rw [Lane.reported_append]

/-- What is reported at once is what is reported about each of the lanes. -/
theorem reports_eq (f : Fanout) (a : Act) :
    f.reports a = (List.range f.lanes.length).flatMap fun i => f.reportedBy i [a] := by
  cases a with
  | clock now =>
    have none : ∀ i, f.reportedBy i [.clock now] = [] := by
      intro i
      cases at_ : f.lanes[i]? <;> simp [reportedBy, at_, laneActs, ofLane, Lane.reported]
    simp [reports, none]
  | close =>
    have none : ∀ i, f.reportedBy i [.close] = [] := by
      intro i
      cases at_ : f.lanes[i]? <;>
        simp [reportedBy, at_, laneActs, ofLane, Lane.reported, Lane.reports]
    simp [reports, none]
  | emit e =>
    have each : (fun i => f.reportedBy i [.emit e]) =
        fun i => ((f.lanes[i]?).map fun l => (l.offerReport? e).toList).getD [] := by
      funext i
      cases at_ : f.lanes[i]? <;>
        simp [reportedBy, at_, laneActs, ofLane, Lane.reported, Lane.reports]
    rw [each, flatMap_range_getElem?, ← List.filterMap_eq_flatMap_toList]
    rfl
  | work j =>
    have each : (fun i => f.reportedBy i [.work j]) =
        fun i => if j = i then (workLane f.now f.lanes j).2 else [] := by
      funext i
      by_cases same : j = i
      · subst same
        cases at_ : f.lanes[j]? <;>
          simp [reportedBy, at_, laneActs, ofLane, workLane, Lane.reported, Lane.reports]
      · cases at_ : f.lanes[i]? <;>
          simp [reportedBy, at_, laneActs, ofLane, same, Lane.reported]
    rw [each, flatMap_range_single]
    by_cases below : j < f.lanes.length
    · rw [if_pos below]
      rfl
    · have none : f.lanes[j]? = none := List.getElem?_eq_none_iff.mpr (Nat.le_of_not_lt below)
      simp [reports, workLane, below]

/-- **What is reported is what is reported about each of the lanes**, in some order. -/
theorem reported_perm (f : Fanout) (acts : List Act) :
    (f.reported acts).Perm ((List.range f.lanes.length).flatMap fun i => f.reportedBy i acts) := by
  induction acts generalizing f with
  | nil =>
    have none : ∀ i, f.reportedBy i [] = [] := by
      intro i
      cases at_ : f.lanes[i]? <;> simp [reportedBy, at_, laneActs, Lane.reported]
    simp [reported, none]
  | cons a acts ih =>
    have rest := ih (f.act a)
    rw [length_lanes_act] at rest
    simp only [reported, reports_eq, reportedBy_cons f _ a acts]
    exact (rest.append_left _).trans (List.flatMap_append_perm ..)

/-- A refusal is reported only when an event is emitted that is no such report itself, and at most
once for each lane. -/
theorem overflows_reports (f : Fanout) (a : Act) :
    (f.reports a).countP (·.kind = .subscriberOverflow) ≤
      f.lanes.length * a.emitted?.toList.countP (·.kind ≠ .subscriberOverflow) := by
  cases a with
  | clock now => simp [reports]
  | close => simp [reports]
  | emit e =>
    by_cases overflow : e.kind = .subscriberOverflow
    · have silent : ∀ l : Lane, l.offerReport? e = none := fun l => if_pos overflow
      show ((f.lanes.filterMap (·.offerReport? e)).countP _) ≤ _
      rw [List.filterMap_eq_nil_iff.mpr fun l _ => silent l]
      exact Nat.zero_le _
    · have most := List.length_filterMap_le (fun l : Lane => l.offerReport? e) f.lanes
      have count : ([e].countP (·.kind ≠ .subscriberOverflow)) = 1 := by simp [overflow]
      show ((f.lanes.filterMap (·.offerReport? e)).countP _) ≤ f.lanes.length * [e].countP _
      rw [count, Nat.mul_one]
      exact Nat.le_trans List.countP_le_length most
  | work j =>
    have panics : ∀ report ∈ f.reports (.work j), report.kind = .subscriberPanicked := by
      intro report mem
      simp only [reports, workLane] at mem
      cases at_ : f.lanes[j]? with
      | none => simp [at_] at mem
      | some l =>
        rw [at_] at mem
        exact ((Lane.worked_work f.now l).reports report mem).1
    have none : (f.reports (.work j)).countP (·.kind = .subscriberOverflow) = 0 := by
      apply List.countP_eq_zero.mpr
      intro report mem
      simp [panics report mem]
    rw [none]
    exact Nat.zero_le _

theorem overflows_reported (f : Fanout) (acts : List Act) :
    (f.reported acts).countP (·.kind = .subscriberOverflow) ≤
      f.lanes.length * (emitted acts).countP (·.kind ≠ .subscriberOverflow) := by
  induction acts generalizing f with
  | nil => simp [reported]
  | cons a acts ih =>
    have now := f.overflows_reports a
    have rest := ih (f.act a)
    have parts : emitted (a :: acts) = a.emitted?.toList ++ emitted acts := by
      cases a <;> rfl
    rw [length_lanes_act] at rest
    rw [reported, parts, List.countP_append, List.countP_append, Nat.mul_add]
    exact Nat.add_le_add now rest

/-! ### The accounts -/

theorem offered_laneActs (f : Fanout) (i : Nat) (acts : List Act) :
    (f.laneActs i acts).filterMap (·.offered?) = emitted acts := by
  induction acts generalizing f with
  | nil => rfl
  | cons a acts ih =>
    rw [laneActs, List.filterMap_append, ih]
    cases a with
    | clock now => rfl
    | emit e => rfl
    | close => rfl
    | work j => by_cases same : j = i <;> simp [ofLane, same, Lane.Act.offered?, emitted, Act.emitted?]

/-- As long as a fan-out is open, its lanes are. -/
theorem isOpen_act {l : Lane} (together : f.isOpen = true → l.isOpen = true) (a : Act)
    (isOpen : (f.act a).isOpen = true) : (l.after (f.ofLane i a)).isOpen = true := by
  cases a with
  | clock now => exact together isOpen
  | emit e => exact (l.offer_isOpen e).trans (together isOpen)
  | close => cases isOpen
  | work j =>
    have before : l.isOpen = true := together isOpen
    by_cases same : j = i
    · simp only [ofLane, same, if_true]
      exact (Lane.worked_work f.now l).isOpen.trans before
    · simp only [ofLane, same, if_false]
      exact before

theorem isOpen_after {l : Lane} {acts : List Act} (together : f.isOpen = true → l.isOpen = true)
    (isOpen : (f.after acts).isOpen = true) : (l.after (f.laneActs i acts)).isOpen = true := by
  induction acts generalizing f l with
  | nil => exact together isOpen
  | cons a acts ih =>
    have rest := ih (f.isOpen_act (i := i) together a) isOpen
    rw [laneActs, Lane.after, List.foldl_append]
    exact rest

/-- Events are only offered to lanes that are open. -/
theorem admits_laneActs {l : Lane} {acts : List Act}
    (together : f.isOpen = true → l.isOpen = true) (admitted : f.admits acts = true) :
    l.admits (f.laneActs i acts) = true := by
  induction acts generalizing f l with
  | nil => rfl
  | cons a acts ih =>
    have later := f.isOpen_act (i := i) together a
    cases a with
    | clock now => exact ih later admitted
    | emit e =>
      obtain ⟨isOpen, rest⟩ := Bool.and_eq_true_iff.mp admitted
      exact Bool.and_eq_true_iff.mpr ⟨together isOpen, ih later rest⟩
    | close => exact ih later admitted
    | work j =>
      have rest := ih later admitted
      by_cases same : j = i
      · simp only [laneActs, ofLane, same, if_true] at rest ⊢
        exact rest
      · simp only [laneActs, ofLane, same, if_false] at rest ⊢
        exact rest

/-- What is true of every lane after the events `emitted` were emitted and it refused `refused`. -/
structure Flow (s : Subscriber) (l : Lane) (emitted : List Event) (refused : List (Event × Refusal)) :
    Prop where
  subscriber : l.subscriber = s
  /-- What was taken is some of what was emitted, in that order. -/
  taken : l.accepted.reverse.Sublist emitted
  /-- Every event that was emitted was taken or refused. -/
  conserved : (l.accepted ++ refused.map (·.1)).Perm emitted
  /-- The subscriber was given the first of what was taken, in order and once. -/
  given : l.given <+: l.accepted.reverse
  /-- What the subscriber was given is dealt with or in its hand. -/
  inHand : l.given = l.dealt ++ l.inHand
  room : l.queue.length ≤ max s.capacity 1

/-- What is true of a lane that keeps its worker, after it refused `refused` and `reports` was reported
about it. -/
structure Account (s : Subscriber) (l : Lane) (refused : List (Event × Refusal))
    (reports : List Event) : Prop where
  /-- What was taken and not given to the subscriber still waits. -/
  queued : l.accepted.reverse = l.given ++ l.queue
  /-- Events were refused for being too many only. -/
  full : ∀ p ∈ refused, p.2 = .full
  /-- One report tells of each refusal of an event that is no such report, and one of each panic. -/
  reports : reports.Perm (s.overflowReports refused ++ s.panicReports l.dealt)
  /-- The worker ends when everything that was taken is dealt with. -/
  ended : l.isGone = true → l.dealt = l.accepted.reverse

section Accounts

variable {s : Subscriber} {l : Lane} {emitted reports : List Event}
  {refused : List (Event × Refusal)}

theorem flow_of_accounts
    (accounts : Lane.Accounts { subscriber := s } l emitted refused reports) :
    Flow s l emitted refused := by
  obtain ⟨taken, is, order, all⟩ := accounts.taken
  have accepted : l.accepted.reverse = taken := is
  rw [← accepted] at order all
  constructor
  · exact accounts.subscriber
  · exact order
  · exact ((List.reverse_perm _).symm.append_right _).trans all
  · exact accounts.fate.order
  · exact accounts.fate.dealt_append_inHand.symm
  · rcases accounts.fate with exact | lost
    · have room := exact.room
      rw [Lane.capacity, accounts.subscriber] at room
      exact room
    · rw [lost.empty]
      exact Nat.zero_le _

/-- What is reported, in terms of what was dealt with from the beginning. -/
theorem told_of_accounts
    (accounts : Lane.Accounts { subscriber := s } l emitted refused reports) :
    reports.Perm (s.overflowReports refused ++ s.toldPanics l.dealt) := by
  obtain ⟨panics, is, tells⟩ := accounts.told
  have told : s.toldPanics l.dealt = panics := is
  rw [told]
  exact tells.trans List.perm_append_comm

theorem account_of_exact (accounts : Lane.Accounts { subscriber := s } l emitted refused reports)
    (exact' : l.Exact) : Account s l refused reports := by
  have endures := exact'.endures
  rw [accounts.subscriber] at endures
  constructor
  · exact exact'.queued
  · exact (accounts.full exact').2
  · rw [← Subscriber.toldPanics_of_endures endures]
    exact told_of_accounts accounts
  · intro gone
    rw [Lane.dealt_of_isGone gone, exact'.queued, (exact'.ended gone).2, List.append_nil]

/-- The worker is lost over the last event, and this is the panic that is not reported. -/
theorem told_of_lost (accounts : Lane.Accounts { subscriber := s } l emitted refused reports)
    (lost : l.Lost) :
    ∃ before e, l.dealt = before ++ [e] ∧ (s.reception (before.length + 1) e).isSurvived = false ∧
      reports.Perm (s.overflowReports refused ++ s.panicReports before) ∧
      s.panicReports l.dealt =
        s.panicReports before ++ [.subscriberPanic s.name (s.panicText e)] := by
  obtain ⟨before, e, given, endures, fatal⟩ := lost.fatal
  rw [accounts.subscriber] at endures fatal
  rw [← Lane.dealt_of_isGone lost.gone] at given
  obtain ⟨told, more⟩ := Subscriber.panicReports_of_fatal endures fatal
  have tells := told_of_accounts accounts
  rw [given, told] at tells
  exact ⟨before, e, given, fatal, tells, given ▸ more⟩

/-- A lane keeps its account exactly as long as its worker survives. -/
theorem exact_iff_endures (accounts : Lane.Accounts { subscriber := s } l emitted refused reports) :
    l.Exact ↔ s.Endures l.dealt := by
  constructor
  · intro exact'
    have endures := exact'.endures
    rwa [accounts.subscriber] at endures
  · intro endures
    refine accounts.fate.resolve_right fun lost => ?_
    obtain ⟨before, e, dealt, fatal, -⟩ := told_of_lost accounts lost
    rw [dealt, Subscriber.endures_concat, fatal] at endures
    cases endures.2

theorem exact_of_account (accounts : Lane.Accounts { subscriber := s } l emitted refused reports)
    (account : Account s l refused reports) : l.Exact := by
  refine accounts.fate.resolve_right fun lost => ?_
  obtain ⟨before, e, -, -, tells, more⟩ := told_of_lost accounts lost
  -- there is one report less than panics
  have length := (tells.symm.trans account.reports).length_eq
  rw [more] at length
  simp at length

end Accounts

/-- A subscriber whose name can be asked for gets its worker lost at the call only. -/
theorem isSurvived_iff_of_named {s : Subscriber} (named : s.losesName = false) (number : Nat)
    (e : Event) : (s.reception number e).isSurvived = true ↔ s.reception number e ≠ .refused := by
  have known : s.reception number e ≠ .unnamed := by
    unfold Subscriber.reception
    split
    · split <;> simp [named]
    · exact fun unnamed => nomatch unnamed
  rw [Reception.isSurvived_iff]
  exact and_iff_left known

theorem endures_iff_of_named {s : Subscriber} (named : s.losesName = false) (events : List Event) :
    s.Endures events ↔ ∀ p ∈ s.receptions events, p.2 ≠ .refused := by
  apply forall₂_congr
  intro p mem
  obtain ⟨⟨e, number⟩, -, rfl⟩ := List.mem_map.mp mem
  exact isSurvived_iff_of_named named number e

/-- What happens to the fan-out is accounted for in each of its lanes. -/
theorem accounts_lane (subscribers : List Subscriber) (busCapacity : Nat) (acts : List Act)
    (admitted : (create subscribers busCapacity).admits acts = true) {i : Nat} {s : Subscriber}
    (there : subscribers[i]? = some s) :
    let start := create subscribers busCapacity
    ∃ l, (start.after acts).lanes[i]? = some l ∧
      Lane.Accounts { subscriber := s } l (emitted acts) (start.refusedBy i acts)
        (start.reportedBy i acts) ∧
      ((start.after acts).isOpen = true → l.isOpen = true) := by
  intro start
  let fresh : Lane := { subscriber := s }
  have first : start.lanes[i]? = some fresh := by
    simp [start, create, openLanes, there, fresh]
  have later := start.getElem?_lanes_after i acts
  rw [first, Option.map_some] at later
  have together : start.isOpen = true → fresh.isOpen = true := fun _ => rfl
  have accounts := Lane.accounts (.inl (Lane.exact_fresh s))
    (admits_laneActs (i := i) together admitted)
  rw [offered_laneActs] at accounts
  have refused : start.refusedBy i acts = fresh.refused (start.laneActs i acts) := by
    rw [refusedBy, first, Option.map_some, Option.getD_some]
  have reported : start.reportedBy i acts = fresh.reported (start.laneActs i acts) := by
    rw [reportedBy, first, Option.map_some, Option.getD_some]
  rw [refused, reported]
  exact ⟨_, later, accounts, isOpen_after together⟩

/-- **Lanes account for every event, unless a subscriber panics at the call.**  However emits, turns
of the workers and the passing of time follow each other, before and after the lanes are closed: the
reports that are written are those about each lane; and there are no more overflows among them than
lanes for each event that is emitted and no overflow.  The lane of every subscriber whose name can be
asked for takes events in order and never more than it has room for; it is accounted for, refuses an
event only for being full, which it is exactly when its queue holds as much as it may, and has dealt
with everything it took once all the workers have ended, exactly if the subscriber has panicked at
none of its calls.  After such a panic the worker is gone and the queue lost, and all the panics before
have been reported, but not this one. -/
theorem lanes_account_iff (subscribers : List Subscriber) (busCapacity : Nat) (acts : List Act)
    (admitted : (create subscribers busCapacity).admits acts = true) :
    let start := create subscribers busCapacity
    (start.after acts).bus = (start.reported acts).foldl Ring.push start.bus ∧
      (start.reported acts).Perm
        ((List.range subscribers.length).flatMap fun i => start.reportedBy i acts) ∧
      (start.reported acts).countP (·.kind = .subscriberOverflow) ≤
        subscribers.length * (emitted acts).countP (·.kind ≠ .subscriberOverflow) ∧
      ∀ i s, subscribers[i]? = some s → s.losesName = false →
        ∃ l, (start.after acts).lanes[i]? = some l ∧
          Flow s l (emitted acts) (start.refusedBy i acts) ∧
          (Account s l (start.refusedBy i acts) (start.reportedBy i acts) ∧
              ((start.after acts).isOpen = true → ∀ r,
                l.refusal? = some r ↔ r = .full ∧ l.queue.length = max s.capacity 1) ∧
              (allGone (start.after acts).lanes = true → l.dealt = l.accepted.reverse) ↔
            ∀ p ∈ s.receptions l.dealt, p.2 ≠ .refused) ∧
          ((∃ p ∈ s.receptions l.dealt, p.2 = .refused) → l.isGone = true ∧ l.queue = [] ∧
            ∃ before e, l.dealt = before ++ [e] ∧ s.reception (before.length + 1) e = .refused ∧
              (start.reportedBy i acts).Perm
                (s.overflowReports (start.refusedBy i acts) ++ s.panicReports before)) := by
  intro start
  have lanes : start.lanes.length = subscribers.length := List.length_map _
  refine ⟨start.bus_after acts, ?_, ?_, ?_⟩
  · rw [← lanes]
    exact start.reported_perm acts
  · rw [← lanes]
    exact start.overflows_reported acts
  · intro i s there named
    obtain ⟨l, later, accounts, together⟩ := accounts_lane subscribers busCapacity acts admitted there
    have calm := endures_iff_of_named named l.dealt
    refine ⟨l, later, flow_of_accounts accounts, ⟨?_, ?_⟩, ?_⟩
    · rintro ⟨account, -⟩
      exact calm.mp ((exact_iff_endures accounts).mp (exact_of_account accounts account))
    · intro survived
      have exact' := (exact_iff_endures accounts).mpr (calm.mpr survived)
      have account := account_of_exact accounts exact'
      refine ⟨account, ?_, ?_⟩
      · intro isOpen r
        have full := exact'.refusal?_eq_some_iff (together isOpen) r
        rw [Lane.capacity, accounts.subscriber] at full
        exact full
      · intro gone
        exact account.ended (List.all_eq_true.mp gone _ (List.mem_of_getElem? later))
    · rintro ⟨p, mem, refused⟩
      have lost : l.Lost := by
        refine accounts.fate.resolve_left fun exact' => ?_
        exact calm.mp ((exact_iff_endures accounts).mp exact') p mem refused
      obtain ⟨before, e, dealt, fatal, tells, -⟩ := told_of_lost accounts lost
      have atCall : s.reception (before.length + 1) e = .refused := by
        by_contra other
        rw [(isSurvived_iff_of_named named _ e).mpr other] at fatal
        cases fatal
      exact ⟨lost.gone, lost.empty, before, e, dealt, atCall, tells⟩

/-- A subscriber with room for a single event, that panics over the first kind of event. -/
def narrow : Subscriber := { name := "s", capacity := 1, panicsOn := [.taskAdded] }

/-- Two events come before the worker has a turn, and one while the lane is closing. -/
def crowding : List Act :=
  [.emit { kind := .taskAdded }, .emit { kind := .runStarted }, .work 0,
    .emit { kind := .managerStarted }, .close, .work 0]

theorem lanes_account_iff_crowded :
    (create [narrow] 4).admits crowding = true ∧
      ∃ l, ((create [narrow] 4).after crowding).lanes[0]? = some l ∧
        l.dealt = l.accepted.reverse ∧
        ((create [narrow] 4).reportedBy 0 crowding).Perm
          (narrow.overflowReports [({ kind := .runStarted }, .full)] ++
            narrow.panicReports l.accepted.reverse) := by
  have admitted : (create [narrow] 4).admits crowding = true := by decide
  have refused : (create [narrow] 4).refusedBy 0 crowding = [({ kind := .runStarted }, .full)] := by
    decide
  have gone : allGone ((create [narrow] 4).after crowding).lanes = true := by decide
  obtain ⟨-, -, -, lanes⟩ := lanes_account_iff [narrow] 4 crowding admitted
  obtain ⟨l, there, -, accounted, -⟩ := lanes 0 narrow rfl rfl
  have calm : ∀ p ∈ narrow.receptions l.dealt, p.2 ≠ .refused := by
    intro p mem
    obtain ⟨⟨e, number⟩, -, rfl⟩ := List.mem_map.mp mem
    show narrow.reception number e ≠ .refused
    unfold Subscriber.reception
    split <;> simp [narrow]
  obtain ⟨account, -, done⟩ := accounted.mpr calm
  refine ⟨admitted, l, there, done gone, ?_⟩
  rw [← done gone, ← refused]
  exact account.reports

/-- A subscriber that panics at the call over the first kind of event. -/
def abrupt : Subscriber :=
  { name := "s", panicsOn := [.taskAdded], temper := fun _ _ => .refuses }

/-- The panic is not reported, and the event behind it is taken and never dealt with. -/
theorem refused_call_loses_lane :
    ¬∀ (subscribers : List Subscriber) (busCapacity : Nat) (acts : List Act),
      (create subscribers busCapacity).admits acts = true →
      ∀ i s, subscribers[i]? = some s → s.losesName = false →
        let f := (create subscribers busCapacity).after acts
        ∃ l, f.lanes[i]? = some l ∧ (allGone f.lanes = true → l.dealt = l.accepted.reverse) ∧
          ((create subscribers busCapacity).reportedBy i acts).Perm
            (s.overflowReports ((create subscribers busCapacity).refusedBy i acts) ++
              s.panicReports l.dealt) := by
  intro accounted
  let acts : List Act :=
    [.emit { kind := .taskAdded }, .emit { kind := .runStarted }, .close, .work 0]
  have admitted : (create [abrupt] 4).admits acts = true := by decide
  have gone : allGone ((create [abrupt] 4).after acts).lanes = true := by decide
  have lane : ((create [abrupt] 4).after acts).lanes[0]?.map (fun l => (l.dealt, l.accepted)) =
      some ([{ kind := .taskAdded }], [{ kind := .runStarted }, { kind := .taskAdded }]) := by decide
  obtain ⟨l, there, done, -⟩ := accounted [abrupt] 4 acts admitted 0 abrupt rfl rfl
  rw [there, Option.map_some, Option.some_inj, Prod.mk.injEq] at lane
  have all := done gone
  rw [lane.1, lane.2] at all
  cases all

end Fanout

end TaskEngine
