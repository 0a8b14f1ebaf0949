/-
  TaskEngine/Proofs/Rounds.lean
  =============================
  **What the executor makes of a fan-out, lane by lane.**

  A worker that has taken its turn has nothing to do before time moves on, and a lane at rest stays
  as it is until its alarm rings (`Lane.passes_until`).  So the order of the turns does not matter:
  to settle the lanes is one look of every worker (`Fanout.settle_settles`), to sleep is one look at
  every whole millisecond (`Fanout.sleep_sleeps`), and to close is so many of them that no worker is
  left (`Fanout.drained_of_await`).

  The executor knows all workers that are left, each of them once, and those that can work are in
  its queue (`Fanout.Manned`).  Its turns and looks are counted; the counts are enough because a
  turn takes a worker out of the queue, and an alarm an event out of a lane.
-/
import Mathlib.Algebra.Order.BigOperators.Group.List
import Mathlib.Algebra.Order.Ring.Nat
import Mathlib.Data.List.Nodup
import Mathlib.Data.List.Perm.Subperm
import TaskEngine.LaneSession
import TaskEngine.Proofs.Changes
import TaskEngine.Proofs.Lanes

namespace TaskEngine

namespace Instant

theorem lt_later {d : Duration} (positive : d.isZero = false) (t : Instant) :
    t.ns < (t.later d).ns := by
  have nonzero : d.ns ≠ 0 := by simpa [Duration.isZero] using positive
  unfold later
  rcases next : t.after? d with _ | u
  · simp [farAway, Duration.ofParts, Duration.nsPerSecond]
  · have sum := (after?_eq_some.mp next).2
    rw [Option.getD_some]
    omega

/-- The moment `n` milliseconds after `t`. -/
def ticks (t : Instant) (n : Nat) : Instant := ⟨t.ns + n * Duration.nsPerMillisecond⟩

@[simp] theorem ticks_zero (t : Instant) : t.ticks 0 = t := by
  simp [ticks]

theorem ticks_add (t : Instant) (m n : Nat) : t.ticks (m + n) = (t.ticks m).ticks n := by
  simp only [ticks, Nat.add_mul, Nat.add_assoc]

theorem lt_of_ticks_lt {t : Instant} {m n : Nat} (lt : (t.ticks m).ns < (t.ticks n).ns) : m < n := by
  simp only [ticks, Nat.add_lt_add_iff_left] at lt
  exact Nat.lt_of_mul_lt_mul_right lt

theorem pos_of_lt_ticks {t : Instant} {n : Nat} (lt : t.ns < (t.ticks n).ns) : 0 < n := by
  apply lt_of_ticks_lt (t := t)
  rwa [ticks_zero]

/-- Whether an instant is a whole number of milliseconds. -/
def IsWhole (t : Instant) : Prop := Duration.nsPerMillisecond ∣ t.ns

theorem isWhole_nextTick (t : Instant) : t.nextTick.IsWhole := Nat.dvd_mul_left ..

theorem isWhole_ticks {t : Instant} (whole : t.IsWhole) (n : Nat) : (t.ticks n).IsWhole := by
  unfold IsWhole Instant.ticks
  exact Nat.dvd_add whole (Nat.dvd_mul_left ..)

theorem IsWhole.eq_ticks {t u : Instant} (ht : t.IsWhole) (hu : u.IsWhole) (le : t.ns ≤ u.ns) :
    u = t.ticks ((u.since t).ns / Duration.nsPerMillisecond) := by
  have whole : Duration.nsPerMillisecond ∣ u.ns - t.ns := Nat.dvd_sub hu ht
  cases u with
  | mk ns =>
      simp only [ticks, since, Instant.mk.injEq] at *
      rw [Nat.div_mul_cancel whole]
      omega

end Instant

namespace Lane

variable {l : Lane} {now t due : Instant}

/-! ## 1. A lane at rest -/

theorem canWork_of_isGone (now : Instant) (gone : l.isGone = true) : l.canWork now = false := by
  rw [canWork, worker_of_isGone gone]

theorem work_of_rests (rests : l.canWork now = false) : l.work now = (l, []) := by
  rcases l with ⟨subscriber, queue, isOpen, worker, accepted, handled⟩
  cases worker with
  | gone => rfl
  | waiting =>
      simp only [canWork, Bool.or_eq_false_iff, Bool.not_eq_false', List.isEmpty_iff] at rests
      obtain ⟨rfl, rfl⟩ := rests
      rfl
  | handling e due =>
      simp only [canWork] at rests
      simp only [work, rests, Bool.false_eq_true, if_false]

theorem canWork_workThrough (now : Instant) (events : List Event) (l : Lane) :
    (l.workThrough now events).1.canWork now = false := by
  induction events generalizing l with
  | nil =>
      unfold workThrough
      rcases isOpen : l.isOpen <;> simp [canWork]
  | cons e rest ih =>
      unfold workThrough
      dsimp only
      split
      · split
        · exact canWork_of_isGone now ‹_›
        · exact ih _
      · rename_i slow
        have later := Instant.lt_later (Bool.eq_false_iff.mpr slow) now
        simp only [canWork, Instant.isDue, decide_eq_false_iff_not]
        omega

/-- After its turn a worker has nothing to do before time moves on. -/
theorem canWork_work (now : Instant) (l : Lane) : (l.work now).1.canWork now = false := by
  rcases worker : l.worker with _ | ⟨e, due⟩ | _
  · rw [work, worker]
    exact canWork_workThrough now l.queue l
  · rw [work, worker]
    dsimp only
    split
    · split
      · exact canWork_of_isGone now ‹_›
      · exact canWork_workThrough now _ _
    · rename_i early
      rw [canWork, worker]
      exact Bool.eq_false_iff.mpr early
  · rw [work, worker, canWork, worker]

theorem work_work (now : Instant) (l : Lane) : ((l.work now).1.work now).1 = (l.work now).1 := by
  rw [work_of_rests (canWork_work now l)]

theorem lt_alarm (rests : l.canWork now = false) (alarm : l.alarm? = some due) :
    now.ns < due.ns := by
  rcases worker : l.worker with _ | ⟨e, d⟩ | _ <;>
    simp only [alarm?, worker, reduceCtorEq, Option.some.injEq] at alarm
  subst alarm
  simpa [canWork, worker, Instant.isDue] using rests

/-- A lane at rest stays at rest until its alarm rings. -/
theorem rests_until (rests : l.canWork now = false)
    (quiet : ∀ due, l.alarm? = some due → t.ns < due.ns) : l.canWork t = false := by
  rcases worker : l.worker with _ | ⟨e, d⟩ | _
  · simpa only [canWork, worker] using rests
  · have later := quiet d (by rw [alarm?, worker])
    simpa [canWork, worker, Instant.isDue] using later
  · rw [canWork, worker]

/-- A worker of a closed lane that is at rest, and not gone, has an alarm set. -/
theorem exists_alarm (closed : l.isOpen = false) (rests : l.canWork now = false)
    (stays : l.isGone = false) : ∃ due, l.alarm? = some due := by
  rcases worker : l.worker with _ | ⟨e, d⟩ | _
  · simp [canWork, worker, closed] at rests
  · exact ⟨d, by rw [alarm?, worker]⟩
  · simp [isGone, worker] at stays

/-! ## 2. How many events are left -/

theorem length_held_workThrough (now : Instant) (events : List Event) (l : Lane) :
    (l.workThrough now events).1.held.length ≤ events.length := by
  induction events generalizing l with
  | nil =>
      unfold workThrough
      rcases l.isOpen <;> simp [held, inHand]
  | cons e rest ih =>
      unfold workThrough
      dsimp only
      split
      · split
        · rename_i gone
          have step := delivered_step { l with queue := rest, handled := (now, e) :: l.handled } e
          generalize delivered { l with queue := rest, handled := (now, e) :: l.handled } e = result
            at step gone
          rcases step with _ | _ | _ <;> simp [held, inHand]
        · exact Nat.le_trans (ih _) (Nat.le_succ _)
      · simp [held, inHand]

theorem length_queue_delivered (l : Lane) (e : Event) :
    (l.delivered e).1.queue.length ≤ l.queue.length := by
  have step := l.delivered_step e
  generalize l.delivered e = result at step ⊢
  rcases step with _ | _ | _ <;> simp

/-- A worker whose alarm has rung gets rid of the event in its hand. -/
theorem length_held_work_of_due (alarm : l.alarm? = some due) (isDue : due.isDue now = true) :
    (l.work now).1.held.length < l.held.length := by
  rcases worker : l.worker with _ | ⟨e, d⟩ | _ <;>
    simp only [alarm?, worker, reduceCtorEq, Option.some.injEq] at alarm
  subst alarm
  rw [held_handling worker, work, worker]
  simp only [isDue, if_true, List.length_cons, Nat.lt_succ_iff]
  split
  · rename_i gone
    rw [held, inHand, worker_of_isGone gone]
    exact length_queue_delivered l e
  · exact Nat.le_trans (length_held_workThrough now _ _) (length_queue_delivered l e)

theorem length_held_work (now : Instant) (l : Lane) :
    (l.work now).1.held.length ≤ l.held.length := by
  rcases worker : l.worker with _ | ⟨e, due⟩ | _
  · rw [held_waiting worker, work, worker]
    exact length_held_workThrough now l.queue l
  · rcases isDue : due.isDue now
    · have rests : l.canWork now = false := by simp only [canWork, worker, isDue]
      rw [work_of_rests rests]
    · exact Nat.le_of_lt (length_held_work_of_due (by rw [alarm?, worker]) isDue)
  · have rests : l.canWork now = false := by rw [canWork, worker]
    rw [work_of_rests rests]

/-! ## 3. A lane through time -/

/-- The lane after its worker has looked at each of the next `n` milliseconds. -/
def passes (now : Instant) : Nat → Lane → Lane
  | 0, l => l
  | n + 1, l => passes (now.ticks 1) n (l.work (now.ticks 1)).1

theorem passes_add (now : Instant) (m n : Nat) (l : Lane) :
    l.passes now (m + n) = (l.passes now m).passes (now.ticks m) n := by
  induction m generalizing now l with
  | zero => simp [passes]
  | succ m ih =>
      rw [Nat.succ_add, passes, ih, passes, ← Instant.ticks_add, Nat.add_comm 1 m]

theorem passes_succ (now : Instant) (n : Nat) (l : Lane) :
    l.passes now (n + 1) = ((l.passes now n).work (now.ticks (n + 1))).1 := by
  rw [passes_add, passes, passes, ← Instant.ticks_add]

theorem passes_of_isGone (gone : l.isGone = true) (n : Nat) : l.passes now n = l := by
  induction n generalizing now with
  | zero => rfl
  | succ n ih => rw [passes, work_of_isGone _ gone, ih]

/-- Nothing happens to a lane before its alarm rings. -/
theorem passes_quiet {n : Nat} (rests : l.canWork now = false)
    (quiet : ∀ due, l.alarm? = some due → (now.ticks n).ns < due.ns) : l.passes now n = l := by
  induction n with
  | zero => rfl
  | succ n ih =>
      have before : ∀ due, l.alarm? = some due → (now.ticks n).ns < due.ns := by
        intro due alarm
        have later := quiet due alarm
        simp only [Instant.ticks, Nat.succ_mul] at later ⊢
        omega
      rw [passes_succ, ih before, work_of_rests (rests_until rests quiet)]

/-- **One look is enough** at a lane whose alarm does not ring before. -/
theorem passes_until {n : Nat} (rests : l.canWork now = false)
    (quiet : ∀ due, l.alarm? = some due → (now.ticks n).ns ≤ due.nextTick.ns) :
    l.passes now n = (l.work (now.ticks n)).1 := by
  cases n with
  | zero => rw [Instant.ticks_zero, work_of_rests rests, passes]
  | succ n =>
      rw [passes_succ, passes_quiet rests]
      intro due alarm
      have rings := quiet due alarm
      have close := due.nextTick_lt
      simp only [Instant.ticks, Nat.succ_mul] at rings ⊢
      omega

/-- When a lane is left by its worker it no longer matters how often it was looked at. -/
theorem passes_unique {m n : Nat} (first : (l.passes now m).isGone = true)
    (second : (l.passes now n).isGone = true) : l.passes now m = l.passes now n := by
  wlog le : m ≤ n generalizing m n with flip
  · exact (flip second first (Nat.le_of_not_le le)).symm
  · obtain ⟨k, rfl⟩ := Nat.exists_eq_add_of_le le
    rw [passes_add, passes_of_isGone first]

end Lane

namespace Fanout

variable {f : Fanout} {x y : Executor Fanout Nat} {i : Nat} {l : Lane}

/-! ## 4. The workers that the executor knows -/

/-- The lanes when every worker has had its turn. -/
def rested (f : Fanout) : List Lane := f.lanes.map fun l => (l.work f.now).1

/-- The executor knows every worker that is left, each of them once, and those that can work are
about to take a turn. -/
structure Staffed (x : Executor Fanout Nat) : Prop where
  nodup : (x.ready ++ x.parked).Nodup
  inRange : ∀ i ∈ x.ready ++ x.parked, i < x.state.lanes.length
  known : ∀ i l, x.state.lanes[i]? = some l → l.isGone = false → i ∈ x.ready ++ x.parked
  waits : ∀ i ∈ x.parked, machine.able x.state i = false

theorem able_of_getElem? (found : f.lanes[i]? = some l) : machine.able f i = l.canWork f.now := by
  simp [machine, found]

theorem mem_live : i ∈ machine.live f ↔ ∃ l, f.lanes[i]? = some l ∧ l.isGone = false := by
  simp [machine, List.mem_zipIdx_iff_getElem?]

theorem nodup_live (f : Fanout) : (machine.live f).Nodup := by
  have all : ((f.lanes.zipIdx).map (·.2)).Nodup := by
    rw [List.zipIdx_map_snd]
    exact List.nodup_range'
  exact all.sublist (List.filter_sublist.map _)

/-- The workers that the executor has not met yet. -/
def newcomers (x : Executor Fanout Nat) : List Nat :=
  (machine.live x.state).filter (!(x.ready ++ x.parked).contains ·)

theorem mem_newcomers : i ∈ newcomers x ↔ i ∈ machine.live x.state ∧ i ∉ x.ready ++ x.parked := by
  simp [newcomers]

theorem refresh_perm (x : Executor Fanout Nat) :
    ((x.refresh machine).ready ++ (x.refresh machine).parked).Perm
      ((x.ready ++ x.parked) ++ newcomers x) := by
  have split := List.filter_append_perm (machine.able x.state) (x.parked ++ newcomers x)
  have joined := split.append_left x.ready
  rwa [← List.append_assoc, ← List.append_assoc] at joined

theorem staffed_refresh (nodup : (x.ready ++ x.parked).Nodup)
    (inRange : ∀ i ∈ x.ready ++ x.parked, i < x.state.lanes.length) :
    Staffed (x.refresh machine) := by
  have perm := refresh_perm x
  refine ⟨?_, ?_, ?_, ?_⟩
  · rw [perm.nodup_iff]
    refine List.Nodup.append nodup ((nodup_live x.state).filter _) ?_
    intro i mem new
    exact (mem_newcomers.mp new).2 mem
  · intro i mem
    rcases List.mem_append.mp (perm.mem_iff.mp mem) with old | new
    · exact inRange i old
    · obtain ⟨l, found, -⟩ := mem_live.mp (mem_newcomers.mp new).1
      exact (List.getElem?_eq_some_iff.mp found).1
  · intro i l found stays
    apply perm.mem_iff.mpr
    by_cases old : i ∈ x.ready ++ x.parked
    · exact List.mem_append_left _ old
    · exact List.mem_append_right _ (mem_newcomers.mpr ⟨mem_live.mpr ⟨l, found, stays⟩, old⟩)
  · intro i mem
    have idle := (List.mem_filter.mp mem).2
    rwa [Bool.not_eq_true'] at idle

theorem Staffed.length_ready (staffed : Staffed x) : x.ready.length ≤ x.state.lanes.length := by
  have nodup := (List.nodup_append.mp staffed.nodup).1
  have inside : x.ready ⊆ List.range x.state.lanes.length := by
    intro i mem
    exact List.mem_range.mpr (staffed.inRange i (List.mem_append_left _ mem))
  simpa using (nodup.subperm inside).length_le

/-- A change to the lanes that keeps their number. -/
theorem Staffed.update (staffed : Staffed x) {g : Fanout → Fanout}
    (same : (g x.state).lanes.length = x.state.lanes.length) : Staffed (x.update machine g) := by
  refine staffed_refresh (x := { x with state := g x.state }) staffed.nodup ?_
  intro i mem
  exact same.symm ▸ staffed.inRange i mem

theorem Staffed.advance (staffed : Staffed x) (t : Instant) : Staffed (x.advance machine t) :=
  staffed.update rfl

theorem Staffed.rests (staffed : Staffed x) (idle : x.ready = []) (found : x.state.lanes[i]? = some l) :
    l.canWork x.state.now = false := by
  rcases gone : l.isGone
  · have known := staffed.known i l found gone
    rw [idle, List.nil_append] at known
    rw [← able_of_getElem? found]
    exact staffed.waits i known
  · exact l.canWork_of_isGone _ gone

theorem Staffed.rested_eq (staffed : Staffed x) (idle : x.ready = []) :
    x.state.rested = x.state.lanes := by
  unfold rested
  conv_rhs => rw [← List.map_id x.state.lanes]
  apply List.map_congr_left
  intro l mem
  obtain ⟨i, found⟩ := List.mem_iff_getElem?.mp mem
  rw [Lane.work_of_rests (staffed.rests idle found), id]

/-! ## 5. Settling -/

theorem lanes_turn (found : f.lanes[i]? = some l) :
    (f.turn i).lanes = f.lanes.set i (l.work f.now).1 := by
  simp [turn, workLane, publishAll, found]

/-- The executor after the turn of worker `i`, before it looks who has become able. -/
def turned (x : Executor Fanout Nat) (i : Nat) (rest : List Nat) : Executor Fanout Nat where
  state := x.state.turn i
  ready := rest
  parked := if (machine.live (x.state.turn i)).contains i then x.parked ++ [i] else x.parked

theorem step?_of_ready {rest : List Nat} (queued : x.ready = i :: rest) :
    x.step? machine = some ((turned x i rest).refresh machine) := by
  rw [Executor.step?, queued]
  rfl

/-- The worker that took its turn goes to the end of those that wait, unless it is gone. -/
theorem mem_parked_turned {rest : List Nat} {k : Nat} : k ∈ (turned x i rest).parked ↔
    k ∈ x.parked ∨ k = i ∧ i ∈ machine.live (x.state.turn i) := by
  by_cases stays : i ∈ machine.live (x.state.turn i) <;> simp [turned, stays]

theorem nodup_turned {rest : List Nat} (nodup : (i :: rest ++ x.parked).Nodup) :
    (rest ++ (turned x i rest).parked).Nodup := by
  rw [List.cons_append] at nodup
  have others := (List.nodup_cons.mp nodup).2
  by_cases stays : i ∈ machine.live (x.state.turn i)
  · have perm := List.perm_append_singleton i (rest ++ x.parked)
    rw [← perm.nodup_iff] at nodup
    simpa [turned, stays] using nodup
  · simpa [turned, stays] using others

/-- The worker at the head of the queue takes its turn, and no other becomes able by that. -/
theorem Staffed.step (staffed : Staffed x) {rest : List Nat} (queued : x.ready = i :: rest) :
    ∃ y, x.step? machine = some y ∧ Staffed y ∧ y.ready = rest ∧ y.state.now = x.state.now ∧
      y.state.isOpen = x.state.isOpen ∧ y.state.rested = x.state.rested := by
  have below : i < x.state.lanes.length := staffed.inRange i (by simp [queued])
  obtain ⟨l, found⟩ : ∃ l, x.state.lanes[i]? = some l := ⟨_, List.getElem?_eq_getElem below⟩
  have lanes := lanes_turn found
  have nodup := staffed.nodup
  rw [queued] at nodup
  have same : ∀ k, k ≠ i → (x.state.turn i).lanes[k]? = x.state.lanes[k]? := by
    intro k other
    rw [lanes, List.getElem?_set_ne (Ne.symm other)]
  have own : (x.state.turn i).lanes[i]? = some (l.work x.state.now).1 := by
    rw [lanes, List.getElem?_set_self below]
  have idle : ∀ k ∈ (turned x i rest).parked, machine.able (x.state.turn i) k = false := by
    intro k mem
    by_cases self : k = i
    · subst self
      rw [able_of_getElem? own]
      exact Lane.canWork_work _ l
    · have waited : k ∈ x.parked := (mem_parked_turned.mp mem).resolve_right fun own => self own.1
      have before := staffed.waits k waited
      have below := staffed.inRange k (List.mem_append_right _ waited)
      have found := List.getElem?_eq_getElem below
      rw [able_of_getElem? found] at before
      rw [able_of_getElem? ((same k self).trans found)]
      exact before
  have met : newcomers (turned x i rest) = [] := by
    apply List.eq_nil_iff_forall_not_mem.mpr
    intro k new
    obtain ⟨live, unmet⟩ := mem_newcomers.mp new
    by_cases self : k = i
    · exact unmet (List.mem_append_right _ (mem_parked_turned.mpr (.inr ⟨self, self ▸ live⟩)))
    · obtain ⟨l', found', stays⟩ := mem_live.mp live
      have known := staffed.known k l' ((same k self).symm.trans found') stays
      rw [queued, List.cons_append, List.mem_cons, List.mem_append] at known
      rcases known.resolve_left self with next | waits
      · exact unmet (List.mem_append_left _ next)
      · exact unmet (List.mem_append_right _ (mem_parked_turned.mpr (.inl waits)))
  refine ⟨_, step?_of_ready queued, staffed_refresh (nodup_turned nodup) ?_, ?_, rfl, rfl, ?_⟩
  · intro k mem
    have old : k ∈ x.ready ++ x.parked := by
      rw [queued, List.cons_append, List.mem_cons, List.mem_append]
      rcases List.mem_append.mp mem with next | waits
      · exact .inr (.inl next)
      · exact (mem_parked_turned.mp waits).symm.imp (·.1) .inr
    exact (congrArg List.length lanes).trans (List.length_set ..) ▸ staffed.inRange k old
  · have none : ((turned x i rest).parked ++ newcomers (turned x i rest)).filter
        (machine.able (turned x i rest).state) = [] := by
      rw [met, List.append_nil, List.filter_eq_nil_iff]
      intro k mem
      exact Bool.eq_false_iff.mp (idle k mem)
    exact (congrArg (rest ++ ·) none).trans (List.append_nil rest)
  · exact (congrArg (List.map _) lanes).trans (map_set_eq_map found (Lane.work_work _ l))

/-- What settling does: every worker has its turn, and then all of them wait. -/
structure Settles (x y : Executor Fanout Nat) : Prop where
  staffed : Staffed y
  idle : y.ready = []
  now : y.state.now = x.state.now
  isOpen : y.state.isOpen = x.state.isOpen
  lanes : y.state.lanes = x.state.rested

theorem Staffed.settleWithin {turns : Nat} (staffed : Staffed x) (enough : x.ready.length ≤ turns) :
    Settles x (x.settleWithin machine turns) := by
  induction turns generalizing x with
  | zero =>
      have idle := List.length_eq_zero_iff.mp (Nat.le_zero.mp enough)
      exact ⟨staffed, idle, rfl, rfl, (staffed.rested_eq idle).symm⟩
  | succ turns ih =>
      rcases queued : x.ready with _ | ⟨i, rest⟩
      · have still : x.settleWithin machine (turns + 1) = x := by
          rw [Executor.settleWithin, Executor.step?, queued]
        rw [still]
        exact ⟨staffed, queued, rfl, rfl, (staffed.rested_eq queued).symm⟩
      · obtain ⟨y, stepped, staffedY, readyY, now, isOpen, rested⟩ := staffed.step queued
        have fewer : y.ready.length ≤ turns := by
          rw [queued, List.length_cons] at enough
          rw [readyY]
          omega
        have done := ih staffedY fewer
        rw [Executor.settleWithin, stepped]
        exact ⟨done.staffed, done.idle, done.now.trans now, done.isOpen.trans isOpen,
          done.lanes.trans rested⟩

theorem length_lt_patience (f : Fanout) : f.lanes.length < f.patience := by
  unfold patience
  induction f.lanes with
  | nil => simp
  | cons l lanes ih =>
      simp only [List.length_cons, List.foldr_cons]
      omega

/-- **To settle is one look of every worker.** -/
theorem Staffed.settle (staffed : Staffed x) : Settles x (x.settle machine) :=
  staffed.settleWithin (Nat.le_of_lt (Nat.lt_of_le_of_lt staffed.length_ready (length_lt_patience _)))

/-! ## 6. Sleeping -/

/-- The alarms of the lanes that have not rung, as the moments at which they will. -/
def pending (f : Fanout) : List Instant :=
  ((machine.alarms f).map (·.nextTick)).filter fun t => f.now.ns < t.ns

/-- The earlier of what was found so far and `t`. -/
def earlier (best : Option Instant) (t : Instant) : Option Instant :=
  match best with
  | some b => if t.ns < b.ns then some t else some b
  | none => some t

theorem foldl_earlier (alarms : List Instant) (best : Instant) :
    ∃ t, alarms.foldl earlier (some best) = some t ∧ t ∈ best :: alarms ∧
      ∀ u ∈ best :: alarms, t.ns ≤ u.ns := by
  induction alarms generalizing best with
  | nil => exact ⟨best, rfl, List.mem_singleton_self best, by simp⟩
  | cons a alarms ih =>
      rw [List.foldl_cons, earlier]
      split
      · obtain ⟨t, found, mem, least⟩ := ih a
        refine ⟨t, found, List.mem_cons_of_mem _ mem, ?_⟩
        have first := least a List.mem_cons_self
        grind
      · obtain ⟨t, found, mem, least⟩ := ih best
        have first := least best List.mem_cons_self
        grind

theorem nextAlarm?_eq (x : Executor Fanout Nat) :
    x.nextAlarm? machine = x.state.pending.foldl earlier none := rfl

theorem nextAlarm?_eq_none (none : x.nextAlarm? machine = none) : x.state.pending = [] := by
  rw [nextAlarm?_eq] at none
  rcases alarms : x.state.pending with _ | ⟨a, rest⟩
  · rfl
  · rw [alarms, List.foldl_cons] at none
    obtain ⟨t, found, -⟩ := foldl_earlier rest a
    exact absurd (found.symm.trans none) (by simp)

theorem nextAlarm?_eq_some {t : Instant} (next : x.nextAlarm? machine = some t) :
    t ∈ x.state.pending ∧ ∀ u ∈ x.state.pending, t.ns ≤ u.ns := by
  rw [nextAlarm?_eq] at next
  rcases alarms : x.state.pending with _ | ⟨a, rest⟩
  · simp [alarms] at next
  · rw [alarms, List.foldl_cons] at next
    obtain ⟨u, found, mem, least⟩ := foldl_earlier rest a
    obtain rfl : u = t := Option.some.inj (found.symm.trans next)
    exact ⟨mem, least⟩

theorem mem_pending {t : Instant} : t ∈ f.pending ↔
    ∃ l ∈ f.lanes, ∃ due, l.alarm? = some due ∧ due.nextTick = t ∧ f.now.ns < t.ns := by
  simp only [pending, machine, List.mem_filter, List.mem_map, List.mem_filterMap,
    decide_eq_true_eq]
  constructor
  · rintro ⟨⟨due, ⟨l, mem, alarm⟩, rings⟩, later⟩
    exact ⟨l, mem, due, alarm, rings, later⟩
  · rintro ⟨l, mem, due, alarm, rings, later⟩
    exact ⟨⟨due, ⟨l, mem, alarm⟩, rings⟩, later⟩

theorem now_advance (x : Executor Fanout Nat) (t : Instant) :
    (x.advance machine t).state.now = t := rfl

theorem isOpen_advance (x : Executor Fanout Nat) (t : Instant) :
    (x.advance machine t).state.isOpen = x.state.isOpen := rfl

theorem rested_advance (x : Executor Fanout Nat) (t : Instant) :
    (x.advance machine t).state.rested = x.state.lanes.map fun l => (l.work t).1 := rfl

/-- Time moves on to a moment before which no alarm rings: the workers look once. -/
theorem Staffed.map_passes (staffed : Staffed x) (idle : x.ready = []) {n : Nat}
    (first : ∀ u ∈ x.state.pending, (x.state.now.ticks n).ns ≤ u.ns) :
    x.state.lanes.map (·.passes x.state.now n) =
      x.state.lanes.map fun l => (l.work (x.state.now.ticks n)).1 := by
  apply List.map_congr_left
  intro l mem
  obtain ⟨i, found⟩ := List.mem_iff_getElem?.mp mem
  have rests := staffed.rests idle found
  apply Lane.passes_until rests
  intro due alarm
  have later := Nat.lt_of_lt_of_le (Lane.lt_alarm rests alarm) due.le_nextTick
  exact first _ (mem_pending.mpr ⟨l, mem, due, alarm, rfl, later⟩)

/-- What sleeping for `n` milliseconds does. -/
structure Sleeps (n : Nat) (x y : Executor Fanout Nat) : Prop where
  staffed : Staffed y
  now : y.state.now = x.state.now.ticks n
  isOpen : y.state.isOpen = x.state.isOpen
  lanes : y.state.lanes = x.state.rested.map (·.passes x.state.now n)

theorem Settles.sleeps (settles : Settles x y) : Sleeps 0 x y := by
  refine ⟨settles.staffed, ?_, settles.isOpen, ?_⟩
  · rw [settles.now, Instant.ticks_zero]
  · exact settles.lanes.trans (List.map_id _).symm

theorem Staffed.sleeps_advance (staffed : Staffed x) (idle : x.ready = []) {n : Nat}
    (first : ∀ u ∈ x.state.pending, (x.state.now.ticks n).ns ≤ u.ns) :
    Sleeps n x ((x.advance machine (x.state.now.ticks n)).settle machine) := by
  have settles := (staffed.advance (x.state.now.ticks n)).settle
  refine ⟨settles.staffed, settles.now.trans (now_advance ..),
    settles.isOpen.trans (isOpen_advance ..), ?_⟩
  rw [settles.lanes, rested_advance, staffed.rested_eq idle, staffed.map_passes idle first]

/-- Time moves on to the first alarm, and then some more. -/
theorem Staffed.sleeps_on (staffed : Staffed x) (idle : x.ready = []) {m n : Nat}
    (first : ∀ u ∈ x.state.pending, (x.state.now.ticks m).ns ≤ u.ns)
    (sleeps : Sleeps n (x.advance machine (x.state.now.ticks m)) y) : Sleeps (m + n) x y := by
  have now := sleeps.now
  have lanes := sleeps.lanes
  rw [now_advance] at now lanes
  refine ⟨sleeps.staffed, now.trans (Instant.ticks_add ..).symm,
    sleeps.isOpen.trans (isOpen_advance ..), ?_⟩
  rw [lanes, rested_advance, ← staffed.map_passes idle first, staffed.rested_eq idle, List.map_map]
  apply List.map_congr_left
  intro l mem
  exact (l.passes_add x.state.now m n).symm

theorem Settles.then {n : Nat} {z : Executor Fanout Nat} (settles : Settles x y)
    (sleeps : Sleeps n y z) : Sleeps n x z := by
  refine ⟨sleeps.staffed, ?_, sleeps.isOpen.trans settles.isOpen, ?_⟩
  · rw [sleeps.now, settles.now]
  · rw [sleeps.lanes, settles.staffed.rested_eq settles.idle, settles.lanes, settles.now]

theorem Staffed.sleepWithin {goal : Instant} {jumps n : Nat} (staffed : Staffed x)
    (whole : x.state.now.IsWhole) (reached : goal = x.state.now.ticks n) (enough : n ≤ jumps) :
    Sleeps n x (x.sleepWithin machine goal jumps) := by
  induction jumps generalizing x n with
  | zero =>
      obtain rfl := Nat.le_zero.mp enough
      exact staffed.settle.sleeps
  | succ jumps ih =>
      have settles := staffed.settle
      rw [Executor.sleepWithin]
      refine settles.then ?_
      generalize x.settle machine = y at settles
      rw [← settles.now] at whole reached
      subst reached
      rcases next : y.nextAlarm? machine with _ | t
      · apply settles.staffed.sleeps_advance settles.idle
        simp [nextAlarm?_eq_none next]
      · obtain ⟨mem, least⟩ := nextAlarm?_eq_some next
        dsimp only
        split
        · rename_i before
          obtain ⟨l, -, due, -, rings, later⟩ := mem_pending.mp mem
          have wholeT : t.IsWhole := rings ▸ due.isWhole_nextTick
          have aligned := whole.eq_ticks wholeT (Nat.le_of_lt later)
          generalize (t.since y.state.now).ns / Duration.nsPerMillisecond = k at aligned
          subst aligned
          obtain ⟨m, rfl⟩ : ∃ m, n = k + m :=
            Nat.exists_eq_add_of_le (Nat.le_of_lt (Instant.lt_of_ticks_lt before))
          have positive := Instant.pos_of_lt_ticks later
          apply settles.staffed.sleeps_on settles.idle least
          refine ih (settles.staffed.advance _) ?_ ?_ (by omega)
          · rw [now_advance]
            exact wholeT
          · rw [now_advance, Instant.ticks_add]
        · rename_i after
          apply settles.staffed.sleeps_advance settles.idle
          intro u other
          exact Nat.le_trans (Nat.le_of_not_lt after) (least u other)

/-- How many whole milliseconds a sleep takes. -/
def naps (now : Instant) (d : Duration) : Nat :=
  ((now.later d).nextTick.since now).ns / Duration.nsPerMillisecond

/-- **To sleep is one look of every worker at every whole millisecond.** -/
theorem Staffed.sleep (staffed : Staffed x) (whole : x.state.now.IsWhole) (d : Duration) :
    Sleeps (naps x.state.now d) x (x.sleep machine d) := by
  have aligned := whole.eq_ticks (Instant.isWhole_nextTick (x.state.now.later d))
  unfold Executor.sleep
  dsimp only
  split
  · rename_i past
    have none : naps x.state.now d = 0 := by
      have past : (x.state.now.later d).nextTick.ns ≤ x.state.now.ns := past
      simp [naps, Instant.since, Nat.sub_eq_zero_of_le past]
    rw [none]
    exact staffed.settle.sleeps
  · rename_i ahead
    exact staffed.sleepWithin whole (aligned (Nat.le_of_not_le ahead)) (Nat.le_refl _)

/-! ## 7. Waiting for the workers to end -/

/-- How many events are left in lanes. -/
def left (lanes : List Lane) : Nat := (lanes.map fun l => l.held.length).sum

theorem left_lt_patience (f : Fanout) : left f.lanes < f.patience := by
  unfold left patience
  induction f.lanes with
  | nil => simp
  | cons l lanes ih =>
      have held : l.held.length ≤ l.queue.length + 1 := by
        rw [Lane.held, List.length_append, Lane.inHand]
        split <;> simp [Nat.add_comm]
      simp only [List.map_cons, List.sum_cons, List.foldr_cons]
      omega

theorem left_work_le (now : Instant) (lanes : List Lane) :
    left (lanes.map fun l => (l.work now).1) ≤ left lanes := by
  rw [left, List.map_map]
  exact List.sum_le_sum fun l _ => Lane.length_held_work now l

/-- When an alarm rings an event leaves its lane. -/
theorem left_work_lt {t : Instant} (rings : t ∈ f.pending) :
    left (f.lanes.map fun l => (l.work t).1) < left f.lanes := by
  obtain ⟨l, mem, due, alarm, rfl, -⟩ := mem_pending.mp rings
  rw [left, List.map_map]
  apply List.sum_lt_sum
  · exact fun l _ => Lane.length_held_work _ l
  · have isDue := (Instant.isDue_iff due due.nextTick).mpr due.le_nextTick
    exact ⟨l, mem, Lane.length_held_work_of_due alarm isDue⟩

theorem Staffed.newcomers_eq (staffed : Staffed x) : newcomers x = [] := by
  apply List.eq_nil_iff_forall_not_mem.mpr
  intro i new
  obtain ⟨live, unmet⟩ := mem_newcomers.mp new
  obtain ⟨l, found, stays⟩ := mem_live.mp live
  exact unmet (staffed.known i l found stays)

/-- A look at who has become able finds nothing new. -/
theorem Staffed.refresh_eq (staffed : Staffed x) : x.refresh machine = x := by
  have waiting : x.parked ++ newcomers x = x.parked := by
    rw [staffed.newcomers_eq, List.append_nil]
  have able : x.parked.filter (machine.able x.state) = [] := by
    rw [List.filter_eq_nil_iff]
    intro i mem
    exact Bool.eq_false_iff.mp (staffed.waits i mem)
  have parked : x.parked.filter (!machine.able x.state ·) = x.parked := by
    rw [List.filter_eq_self]
    intro i mem
    rw [staffed.waits i mem, Bool.not_false]
  have look : x.refresh machine = { x with
      ready := x.ready ++ (x.parked ++ newcomers x).filter (machine.able x.state)
      parked := (x.parked ++ newcomers x).filter (!machine.able x.state ·) } := rfl
  rw [look, waiting, able, parked, List.append_nil]

/-- What waiting for the workers to end does: some milliseconds pass, and all of them are gone. -/
structure Drains (x y : Executor Fanout Nat) : Prop where
  staffed : Staffed y
  whole : y.state.now.IsWhole
  isOpen : y.state.isOpen = x.state.isOpen
  gone : ∀ l ∈ y.state.lanes, l.isGone = true
  lanes : ∃ n, y.state.lanes = x.state.rested.map (·.passes x.state.now n)

/-- Whether all workers have ended, as a question that is asked again and again. -/
def drained? (f : Fanout) : Fanout × Option Unit := (f, if allGone f.lanes then some () else none)

theorem rested_closed (closed : ∀ l ∈ f.lanes, l.isOpen = false) :
    ∀ l ∈ f.rested, l.isOpen = false := by
  intro l mem
  obtain ⟨before, old, rfl⟩ := List.mem_map.mp mem
  rw [(Lane.worked_work f.now before).isOpen]
  exact closed before old

/-- A closed lane that is left by no worker yet has an alarm, which will ring. -/
theorem Staffed.exists_pending (staffed : Staffed x) (idle : x.ready = [])
    (closed : ∀ l ∈ x.state.lanes, l.isOpen = false) (stay : allGone x.state.lanes = false) :
    x.state.pending ≠ [] := by
  obtain ⟨l, mem, stays⟩ : ∃ l ∈ x.state.lanes, l.isGone = false := by
    simpa [allGone] using stay
  obtain ⟨i, found⟩ := List.mem_iff_getElem?.mp mem
  have rests := staffed.rests idle found
  obtain ⟨due, alarm⟩ := Lane.exists_alarm (closed l mem) rests stays
  have later := Nat.lt_of_lt_of_le (Lane.lt_alarm rests alarm) due.le_nextTick
  exact List.ne_nil_of_mem (mem_pending.mpr ⟨l, mem, due, alarm, rfl, later⟩)

theorem Staffed.awaitWithin {rounds : Nat} (staffed : Staffed x) (whole : x.state.now.IsWhole)
    (closed : ∀ l ∈ x.state.lanes, l.isOpen = false) (enough : left x.state.rested < rounds) :
    Drains x (x.awaitWithin machine drained? none rounds).1 := by
  induction rounds generalizing x with
  | zero => exact absurd enough (Nat.not_lt_zero _)
  | succ rounds ih =>
      have settles := staffed.settle
      rw [Executor.awaitWithin]
      generalize x.settle machine = y at settles
      have look : Executor.refresh machine ⟨y.state, y.ready, y.parked⟩ = y :=
        settles.staffed.refresh_eq
      have lanes := settles.lanes
      rcases gone : allGone y.state.lanes
      · -- a worker is left: its alarm is ahead, and one event less is left when it has rung
        have closedY : ∀ l ∈ y.state.lanes, l.isOpen = false := lanes ▸ rested_closed closed
        rcases next : y.nextAlarm? machine with _ | t
        · exact absurd (nextAlarm?_eq_none next)
            (settles.staffed.exists_pending settles.idle closedY gone)
        · obtain ⟨mem, least⟩ := nextAlarm?_eq_some next
          obtain ⟨l, -, due, -, rings, later⟩ := mem_pending.mp mem
          have wholeT : t.IsWhole := rings ▸ due.isWhole_nextTick
          have fewer : left (y.advance machine t).state.rested < rounds := by
            have less := left_work_lt mem
            rw [rested_advance]
            rw [lanes] at less ⊢
            omega
          have drains := ih (settles.staffed.advance t) wholeT closedY fewer
          simp only [drained?, gone, look, Bool.false_eq_true, if_false]
          simp only [settles.idle, next, List.isEmpty_nil, if_true, Option.filter, Option.all_none]
          rw [← settles.now] at whole
          have aligned := whole.eq_ticks wholeT (Nat.le_of_lt later)
          generalize (t.since y.state.now).ns / Duration.nsPerMillisecond = k at aligned
          subst aligned
          obtain ⟨n, drained⟩ := drains.lanes
          have isOpen := (drains.isOpen.trans (isOpen_advance ..)).trans settles.isOpen
          refine ⟨drains.staffed, drains.whole, isOpen, drains.gone, k + n, ?_⟩
          rw [now_advance, rested_advance, ← settles.staffed.map_passes settles.idle least,
            List.map_map] at drained
          rw [drained, lanes, ← settles.now]
          apply List.map_congr_left
          intro l mem
          exact (l.passes_add y.state.now k n).symm
      · simp only [drained?, gone, look, if_true]
        refine ⟨settles.staffed, settles.now ▸ whole, settles.isOpen, List.all_eq_true.mp gone, 0, ?_⟩
        rw [lanes]
        exact (List.map_id _).symm

/-- **To wait for the end of a closed fan-out** is to look until no worker is left. -/
theorem Staffed.await (staffed : Staffed x) (whole : x.state.now.IsWhole)
    (closed : ∀ l ∈ x.state.lanes, l.isOpen = false) :
    Drains x (x.await machine drained? none).1 := by
  have fewer := left_work_le x.state.now x.state.lanes
  exact staffed.awaitWithin whole closed (Nat.lt_of_le_of_lt fewer (left_lt_patience x.state))

theorem rested_of_gone (gone : ∀ l ∈ f.lanes, l.isGone = true) : f.rested = f.lanes := by
  conv_rhs => rw [← List.map_id f.lanes]
  apply List.map_congr_left
  intro l mem
  rw [l.work_of_isGone f.now (gone l mem), id]

end Fanout

end TaskEngine
