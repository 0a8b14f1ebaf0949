/-
  TaskEngine/Proofs/FixedRate.lean
  ================================
  **Fixed rate does not drift, and does not catch up.**

  A schedule of fixed rate counts its ticks from the instant of its first turn.  What it arms its
  timer for after a tick depends on that instant, the interval and the time of the tick only
  (`InStep`), whatever happened to its requests and to the runs.  As long as the distances fit, that is
  the first multiple of the interval strictly after the tick (`isLeast_multiple`), so the multiples
  and the ticks take turns and both go on (`Marches`).  They go on until the run token is cancelled, or
  the clock cannot show an instant one interval after a tick (`BrokeOff`).
-/
import Mathlib.Data.List.Chain
import Mathlib.Order.Bounds.Basic
import TaskEngine.Proofs.Schedules

namespace TaskEngine

/-! ## 1. Multiples of the interval -/

theorem isLeast_multiple {base now step : Nat} (nonzero : 0 < step) (reached : base ≤ now) :
    IsLeast {k : Nat | now < base + k * step} ((now - base) / step + 1) := by
  have below : (now - base) / step * step ≤ now - base := Nat.div_mul_le_self ..
  have above : now - base < (now - base) / step * step + step := Nat.lt_div_mul_add nonzero
  constructor
  · show now < base + ((now - base) / step + 1) * step
    rw [Nat.succ_mul]
    omega
  · intro k later
    have later : now < base + k * step := later
    have fewer : now - base < k * step := by omega
    exact (Nat.div_lt_iff_lt_mul nonzero).mpr fewer

theorem lt_limit_of_nextAligned? {base now due : Instant} {step : Duration}
    (reached : base.ns ≤ now.ns) (next : nextAligned? base step now = some due) :
    now.ns + step.ns < Instant.limit := by
  by_contra beyond
  have none : nextAligned? base step now = none :=
    nextAligned?_eq_none_iff.mpr ⟨(Instant.isDue_iff ..).mpr reached, Nat.le_of_not_lt beyond⟩
  cases none.symm.trans next

/-- As long as the distance fits, the next tick is the first multiple that lies ahead. -/
theorem nextAligned?_eq {base now due : Instant} {step : Duration} (nonzero : 0 < step.ns)
    (reached : base.ns ≤ now.ns)
    (fits : ((now.ns - base.ns) / step.ns + 1) * step.ns ≤ maxOffset)
    (next : nextAligned? base step now = some due) :
    due.ns = base.ns + ((now.ns - base.ns) / step.ns + 1) * step.ns := by
  have multiple : max step.ns 1 = step.ns := Nat.max_eq_left nonzero
  have within : now.ns + step.ns < Instant.limit := lt_limit_of_nextAligned? reached next
  rw [nextAligned?, if_neg (Nat.not_lt.mpr reached), multiple, Option.map_eq_some_iff] at next
  obtain ⟨fallback, -, is⟩ := next
  have below : (now.ns - base.ns) / step.ns * step.ns ≤ now.ns - base.ns := Nat.div_mul_le_self ..
  have onClock : base.ns + ((now.ns - base.ns) / step.ns + 1) * step.ns < Instant.limit := by
    rw [Nat.succ_mul]
    omega
  rw [Nat.min_eq_left fits, Instant.after?, if_pos onClock] at is
  rw [← is]
  rfl

/-! ## 2. The beats of a schedule of fixed rate -/

/-- The timers that were armed, the oldest first, each with the moment at which it was. -/
def armings (beats : List (Instant × Beat)) : List (Instant × Instant) :=
  beats.reverse.filterMap fun
    | (now, .armed due) => some (now, due)
    | _ => none

/-- The moments at which the schedule ticked, so made its requests, the oldest first. -/
def tickTimes (beats : List (Instant × Beat)) : List Instant :=
  beats.reverse.filterMap fun
    | (now, .ticked) => some now
    | _ => none

def Beat.isTimer : Beat → Bool
  | .armed _ | .ticked => true
  | .announced | .answered _ => false

/-- What has to do with the timer of the schedule. -/
def timers (beats : List (Instant × Beat)) : List (Instant × Beat) := beats.filter (·.2.isTimer)

/-- What a schedule of fixed rate does with its timer, and what it waits for after that, if not for
its request: the newest beat comes first. -/
inductive InStep (every : Every) (base : Instant) : Option Instant → List (Instant × Beat) → Prop where
  | first {due : Instant}
      (is : (if every.startImmediately then some base else base.after? every.interval) = some due) :
      InStep every base (some due) [(base, .armed due)]
  | tick {due now : Instant} {beats : List (Instant × Beat)} (h : InStep every base (some due) beats)
      (isDue : due.isDue now = true) : InStep every base none ((now, .ticked) :: beats)
  | again {now due : Instant} {beats : List (Instant × Beat)}
      (h : InStep every base none ((now, .ticked) :: beats))
      (next : nextAligned? base every.interval now = some due) :
      InStep every base (some due) ((now, .armed due) :: (now, .ticked) :: beats)

/-- The schedule has broken off at its last tick. -/
def BrokeOff (every : Every) (beats : List (Instant × Beat)) : Prop :=
  ∃ tick, (tickTimes beats).getLast? = some tick ∧ Instant.limit ≤ tick.ns + every.interval.ns

section Reading

variable (now due : Instant) (beats : List (Instant × Beat))

@[simp] theorem armings_armed :
    armings ((now, .armed due) :: beats) = armings beats ++ [(now, due)] := by
  simp [armings]

@[simp] theorem armings_ticked : armings ((now, .ticked) :: beats) = armings beats := by
  simp [armings]

@[simp] theorem tickTimes_armed : tickTimes ((now, .armed due) :: beats) = tickTimes beats := by
  simp [tickTimes]

@[simp] theorem tickTimes_ticked :
    tickTimes ((now, .ticked) :: beats) = tickTimes beats ++ [now] := by
  simp [tickTimes]

@[simp] theorem tickTimes_announced :
    tickTimes ((now, .announced) :: beats) = tickTimes beats := by
  simp [tickTimes]

@[simp] theorem tickTimes_answered (result : AdmissionResult) :
    tickTimes ((now, .answered result) :: beats) = tickTimes beats := by
  simp [tickTimes]

theorem armings_append (newer older : List (Instant × Beat)) :
    armings (newer ++ older) = armings older ++ armings newer := by
  simp [armings]

theorem armings_timers : armings (timers beats) = armings beats := by
  rw [armings, armings, timers, ← List.filter_reverse, List.filterMap_filter]
  congr
  funext b
  obtain ⟨moment, beat⟩ := b
  cases beat <;> rfl

theorem tickTimes_timers : tickTimes (timers beats) = tickTimes beats := by
  rw [tickTimes, tickTimes, timers, ← List.filter_reverse, List.filterMap_filter]
  congr
  funext b
  obtain ⟨moment, beat⟩ := b
  cases beat <;> rfl

end Reading

/-! ## 3. The march -/

/-- The multiples of the interval that timers are armed for and the ticks take turns: each tick comes
when its multiple is reached, and the next timer is armed at once, for the first multiple after it. -/
structure Marches (every : Every) (base : Instant) (armings : List (Instant × Instant))
    (ticks : List Instant) (ks : List Nat) : Prop where
  dues : armings.map (·.2.ns) = ks.map fun k => base.ns + k * every.interval.ns
  first : ks.head? = some (if every.startImmediately then 0 else 1)
  reached : ∀ (n : Nat) (tick : Instant) (k : Nat), ticks[n]? = some tick → ks[n]? = some k →
    base.ns + k * every.interval.ns ≤ tick.ns
  next : ∀ (n : Nat) (tick : Instant) (k : Nat), ticks[n]? = some tick → ks[n + 1]? = some k →
    IsLeast {k : Nat | tick.ns < base.ns + k * every.interval.ns} k
  shown : ∀ (n : Nat) (tick : Instant) (k : Nat), ticks[n]? = some tick → ks[n + 1]? = some k →
    tick.ns + every.interval.ns < Instant.limit
  atOnce : ∀ (n : Nat) (tick moment due : Instant), ticks[n]? = some tick →
    armings[n + 1]? = some (moment, due) → moment = tick

namespace Marches

theorem getElem?_concat_some {α : Type} {l : List α} {a b : α} {n : Nat}
    (found : (l ++ [a])[n]? = some b) : l[n]? = some b ∨ n = l.length ∧ a = b := by
  rw [List.getElem?_append] at found
  split at found
  · exact .inl found
  · rename_i outside
    obtain ⟨inside, is⟩ := List.getElem?_eq_some_iff.mp found
    rw [List.length_singleton] at inside
    refine .inr ⟨by omega, ?_⟩
    rwa [List.getElem_singleton] at is

variable {every : Every} {base now : Instant} {armings : List (Instant × Instant)}
  {ticks : List Instant} {ks : List Nat}

theorem length_eq (h : Marches every base armings ticks ks) : armings.length = ks.length := by
  have same := congrArg List.length h.dues
  rwa [List.length_map, List.length_map] at same

/-- The timer fires. -/
theorem tick (h : Marches every base armings ticks ks) (waits : ks.length = ticks.length + 1)
    (isDue : ∀ k, ks[ticks.length]? = some k → base.ns + k * every.interval.ns ≤ now.ns) :
    Marches every base armings (ticks ++ [now]) ks := by
  have unarmed {k : Nat} : ks[ticks.length + 1]? ≠ some k := by
    rw [List.getElem?_eq_none (Nat.le_of_eq waits)]
    exact nofun
  refine ⟨h.dues, h.first, ?_, ?_, ?_, ?_⟩
  · intro n tick k ticked armed
    rcases getElem?_concat_some ticked with earlier | ⟨rfl, rfl⟩
    · exact h.reached n tick k earlier armed
    · exact isDue k armed
  · intro n tick k ticked armed
    rcases getElem?_concat_some ticked with earlier | ⟨rfl, rfl⟩
    · exact h.next n tick k earlier armed
    · exact absurd armed unarmed
  · intro n tick k ticked armed
    rcases getElem?_concat_some ticked with earlier | ⟨rfl, rfl⟩
    · exact h.shown n tick k earlier armed
    · exact absurd armed unarmed
  · intro n tick moment due ticked armed
    rcases getElem?_concat_some ticked with earlier | ⟨rfl, rfl⟩
    · exact h.atOnce n tick moment due earlier armed
    · rw [List.getElem?_eq_none (Nat.le_of_eq (h.length_eq.trans waits))] at armed
      cases armed

/-- The next timer is armed. -/
theorem arm {k : Nat} {due : Instant} (h : Marches every base armings (ticks ++ [now]) ks)
    (ticked : ks.length = ticks.length + 1) (is : due.ns = base.ns + k * every.interval.ns)
    (least : IsLeast {k : Nat | now.ns < base.ns + k * every.interval.ns} k)
    (within : now.ns + every.interval.ns < Instant.limit) :
    Marches every base (armings ++ [(now, due)]) (ticks ++ [now]) (ks ++ [k]) := by
  have last {tick : Instant} (found : (ticks ++ [now])[ticks.length]? = some tick) : now = tick := by
    rwa [List.getElem?_concat_length, Option.some.injEq] at found
  refine ⟨?_, ?_, ?_, ?_, ?_, ?_⟩
  · rw [List.map_append, List.map_append, h.dues]
    simp [is]
  · rw [List.head?_append, h.first]
    rfl
  · intro n tick k' found armed
    rcases getElem?_concat_some armed with earlier | ⟨rfl, rfl⟩
    · exact h.reached n tick k' found earlier
    · rw [List.getElem?_eq_none (by simp [ticked])] at found
      cases found
  · intro n tick k' found armed
    rcases getElem?_concat_some armed with earlier | ⟨here, rfl⟩
    · exact h.next n tick k' found earlier
    · obtain rfl : n = ticks.length := by omega
      rwa [← last found]
  · intro n tick k' found armed
    rcases getElem?_concat_some armed with earlier | ⟨here, rfl⟩
    · exact h.shown n tick k' found earlier
    · obtain rfl : n = ticks.length := by omega
      rwa [← last found]
  · intro n tick moment due' found armed
    rcases getElem?_concat_some armed with earlier | ⟨here, same⟩
    · exact h.atOnce n tick moment due' found earlier
    · rw [h.length_eq] at here
      obtain rfl : n = ticks.length := by omega
      cases same
      exact last found

/-- A multiple is reached before the next timer is armed, for a later one. -/
theorem increases (h : Marches every base armings ticks ks) (ahead : ks.length ≤ ticks.length + 1) :
    ks.Pairwise (· < ·) := by
  rw [← List.isChain_iff_pairwise, List.isChain_iff_getElem]
  intro n inside
  have before : n < ticks.length := by omega
  have ticked : ticks[n]? = some ticks[n] := List.getElem?_eq_getElem before
  have reached := h.reached n _ _ ticked (List.getElem?_eq_getElem (by omega))
  have later := (h.next n _ _ ticked (List.getElem?_eq_getElem inside)).1
  have more := Nat.lt_of_le_of_lt reached later
  exact Nat.lt_of_mul_lt_mul_right (Nat.lt_of_add_lt_add_left more)

/-- A timer that is armed lies ahead of the tick before, and fires when it is reached. -/
theorem ticks_increase (h : Marches every base armings ticks ks) (behind : ticks.length ≤ ks.length) :
    ticks.Pairwise (·.ns < ·.ns) := by
  rw [← List.pairwise_map (f := fun tick : Instant => tick.ns), ← List.isChain_iff_pairwise,
    List.isChain_iff_getElem]
  intro n inside
  rw [List.length_map] at inside
  rw [List.getElem_map, List.getElem_map]
  have within : n + 1 < ks.length := by omega
  have armed : ks[n + 1]? = some ks[n + 1] := List.getElem?_eq_getElem within
  have ahead := (h.next n _ _ (List.getElem?_eq_getElem (by omega)) armed).1
  have reached := h.reached (n + 1) _ _ (List.getElem?_eq_getElem inside) armed
  exact Nat.lt_of_lt_of_le ahead reached

end Marches

/-- What a schedule of fixed rate does with its timer is a march along the multiples of its interval,
as long as the distances fit. -/
theorem InStep.marches {every : Every} {base : Instant} {due? : Option Instant}
    {beats : List (Instant × Beat)} (paced : InStep every base due? beats)
    (nonzero : 0 < every.interval.ns)
    (fits : ∀ tick ∈ tickTimes beats,
      ((tick.ns - base.ns) / every.interval.ns + 1) * every.interval.ns ≤ maxOffset) :
    ∃ ks, Marches every base (armings beats) (tickTimes beats) ks ∧
      ks.length = (tickTimes beats).length + due?.toList.length ∧
      ∀ due, due? = some due → ∃ k, ks.getLast? = some k ∧
        due.ns = base.ns + k * every.interval.ns := by
  induction paced with
  | @first due is =>
      have due_eq : due.ns = base.ns + (if every.startImmediately then 0 else 1) * every.interval.ns := by
        cases immediate : every.startImmediately with
        | true =>
            rw [immediate, if_pos rfl, Option.some.injEq] at is
            simp [is]
        | false =>
            rw [immediate, if_neg Bool.false_ne_true] at is
            simp [(Instant.after?_eq_some.mp is).2]
      refine ⟨[if every.startImmediately then 0 else 1], ⟨?_, rfl, ?_, ?_, ?_, ?_⟩, rfl, ?_⟩
      · simp [armings, due_eq]
      · exact fun _ _ _ ticked => nomatch ticked
      · exact fun _ _ _ ticked => nomatch ticked
      · exact fun _ _ _ ticked => nomatch ticked
      · exact fun _ _ _ _ ticked => nomatch ticked
      · rintro _ ⟨⟩
        exact ⟨_, rfl, due_eq⟩
  | @tick due now beats _ isDue ih =>
      rw [tickTimes_ticked] at fits ⊢
      obtain ⟨earlier, -⟩ := List.forall_mem_append.mp fits
      obtain ⟨ks, marches, length, last⟩ := ih earlier
      obtain ⟨k, is_last, due_eq⟩ := last due rfl
      rw [armings_ticked]
      refine ⟨ks, marches.tick length fun k' found => ?_, ?_, nofun⟩
      · have same : ks.getLast? = ks[(tickTimes beats).length]? := by
          rw [List.getLast?_eq_getElem?, length]
          rfl
        obtain rfl : k = k' := Option.some.inj (is_last.symm.trans (same.trans found))
        rw [← due_eq]
        exact (Instant.isDue_iff due now).mp isDue
      · rw [length, List.length_append]
        rfl
  | @again now due beats _ next ih =>
      rw [tickTimes_armed] at fits ⊢
      obtain ⟨ks, marches, length, -⟩ := ih fits
      rw [armings_armed]
      rw [tickTimes_ticked] at fits marches length ⊢
      have ticked : ks.length = (tickTimes beats).length + 1 := by
        rw [length, List.length_append]
        rfl
      obtain ⟨k, armed⟩ : ∃ k, ks[(tickTimes beats).length]? = some k :=
        ⟨_, List.getElem?_eq_getElem (by omega)⟩
      have reached : base.ns ≤ now.ns := by
        have at_boundary := marches.reached _ now k (List.getElem?_concat_length) armed
        omega
      have here := fits now (List.mem_append_right _ List.mem_cons_self)
      have due_eq := nextAligned?_eq nonzero reached here next
      have within := lt_limit_of_nextAligned? reached next
      refine ⟨_, marches.arm ticked due_eq (isLeast_multiple nonzero reached) within, ?_, ?_⟩
      · rw [List.length_append, length]
        rfl
      · rintro _ ⟨⟩
        exact ⟨_, List.getLast?_concat, due_eq⟩

/-- The instant of the first turn is the one that the timer was armed at first. -/
theorem InStep.head_armings {every : Every} {base : Instant} {due? : Option Instant}
    {beats : List (Instant × Beat)} (paced : InStep every base due? beats) :
    (armings beats).head?.map (·.1) = some base := by
  induction paced with
  | first is => rfl
  | tick _ isDue ih => rwa [armings_ticked]
  | again _ next ih =>
      rw [armings_armed, List.head?_append]
      obtain ⟨arming, head, is⟩ := Option.map_eq_some_iff.mp ih
      rw [head]
      exact congrArg some is

/-- A tick that the clock can show the next instant of is not the last thing that happens: a schedule
breaks off only at a tick where it cannot, and otherwise sleeps for a timer. -/
theorem lt_length_of_shown {every : Every} {due? : Option Instant} {beats : List (Instant × Beat)}
    {ks : List Nat} (broke : due? = none → BrokeOff every beats)
    (length : ks.length = (tickTimes beats).length + due?.toList.length) (n : Nat) (tick : Instant)
    (ticked : (tickTimes beats)[n]? = some tick)
    (shown : tick.ns + every.interval.ns < Instant.limit) : n + 1 < ks.length := by
  have before := (List.getElem?_eq_some_iff.mp ticked).1
  cases due? with
  | some due =>
      rw [Option.toList_some, List.length_singleton] at length
      omega
  | none =>
      obtain ⟨final, newest, beyond⟩ := broke rfl
      rw [Option.toList_none, List.length_nil] at length
      rw [List.getLast?_eq_getElem?] at newest
      by_contra last_one
      have here : (tickTimes beats).length - 1 = n := by omega
      obtain rfl : tick = final := Option.some.inj (ticked.symm.trans (here ▸ newest))
      omega

namespace Engine

variable {e e' : Engine} {t : TaskId}

/-! ## 4. All histories -/

/-- Where the loop of a schedule of fixed rate stands is where its timer stands. -/
def Paces (every : Every) (beats : List (Instant × Beat)) : Loop → Prop
  | .absent | .fresh => timers beats = []
  | .sleeping base due => InStep every base (some due) (timers beats)
  | .listening .. => False
  | .ended => timers beats = [] ∨ ∃ base due?, InStep every base due? (timers beats) ∧
      (due? = none → BrokeOff every (timers beats))

theorem timers_of_quiet {beats : List (Instant × Beat)} (quiet : ∀ b ∈ beats, b.2.isAnswer = true) :
    timers beats = [] := by
  refine List.filter_eq_nil_iff.mpr fun b mem => ?_
  have answer := quiet b mem
  obtain ⟨now, beat⟩ := b
  cases beat with
  | answered result => simp [Beat.isTimer]
  | _ => cases answer

/-- Every schedule of the task keeps the pace, if it is one of fixed rate. -/
def KeepsPace (t : TaskId) (e : Engine) : Prop :=
  ∀ task every, e.tasks[t]? = some task → task.spec.schedule = .every every →
    every.tick = .fixedRate → Paces every (e.beats t) task.loop

theorem KeepsPace.spares (h : KeepsPace t e) (spares : Spares t e e') : KeepsPace t e' := by
  intro new every known periodic rate
  obtain ⟨old, was, same⟩ := spares.old known
  obtain ⟨answers, beats, quiet⟩ := spares.beats
  have silent : timers (e'.beats t) = timers (e.beats t) := by
    rw [beats, timers, List.filter_append]
    exact congrArg (· ++ _) (timers_of_quiet quiet)
  have paces := h old every was (same.spec ▸ periodic) rate
  rw [same.loop]
  unfold Paces at paces ⊢
  rwa [silent]

theorem KeepsPace.setsUp (regular : Regular t e) (sets : SetsUp t e e') : KeepsPace t e' := by
  intro new every known _ _
  have told := regular.tells
  rw [sets.absent regular.young] at told
  have nothing : timers (e'.beats t) = [] := by
    rw [sets.beats]
    exact timers_of_quiet told
  have resting := sets.loopOf regular.young
  rw [loopOf_of_known known] at resting
  rcases resting with absent | fresh
  · rw [absent]
    exact nothing
  · rw [fresh]
    exact nothing

/-- A schedule that waits for nothing arms its timer, or breaks off. -/
theorem paces_armLoop {task : TaskRecord} {every : Every} {base : Instant} {due? : Option Instant}
    (known : e.tasks[t]? = some task) (breaks : due? = none → Paces every (e.beats t) .ended)
    (arms : ∀ due, due? = some due →
      InStep every base (some due) ((e.now, .armed due) :: timers (e.beats t))) (named : TaskRecord) :
    Paces every ((e.armLoop t named base due?).beats t) ((e.armLoop t named base due?).loopOf t) := by
  rw [loopOf_of_known (known_armLoop known named base due?)]
  cases due? with
  | none => exact breaks rfl
  | some due =>
      rw [beats_armLoop_some]
      exact arms due rfl

theorem Paces.ended {every : Every} {beats : List (Instant × Beat)} {l : Loop}
    (h : Paces every beats l) : Paces every beats .ended := by
  cases l with
  | absent => exact .inl h
  | fresh => exact .inl h
  | sleeping base due => exact .inr ⟨base, some due, h, nofun⟩
  | listening base seen => exact h.elim
  | ended => exact h

theorem KeepsPace.step (h : KeepsPace t e) (step : LoopStep t e e') : KeepsPace t e' := by
  intro new every known periodic rate
  obtain ⟨old, new', was, known', spec, -, -⟩ := step.known
  obtain rfl : new' = new := Option.some.inj (known'.symm.trans known)
  rw [spec] at periodic
  have paces := h old every was periodic rate
  rw [← loopOf_of_known known]
  -- the step was taken by this very task, with this very schedule
  have same {task : TaskRecord} {other : Every} (found : e.tasks[t]? = some task)
      (schedule : task.spec.schedule = .every other) : task = old ∧ other = every := by
    obtain rfl : task = old := Option.some.inj (found.symm.trans was)
    refine ⟨rfl, ?_⟩
    rw [schedule] at periodic
    cases periodic
    rfl
  cases step with
  | begins task other found schedule fresh =>
      obtain ⟨rfl, rfl⟩ := same found schedule
      have nothing : timers (e.beats t) = [] := by rwa [fresh] at paces
      refine paces_armLoop was (fun _ => paces.ended) (fun due is => ?_) _
      rw [nothing]
      exact .first is
  | goesOn task other base seen found schedule listens heard =>
      obtain ⟨rfl, rfl⟩ := same found schedule
      rw [listens] at paces
      exact paces.elim
  | ticks task other base due found schedule sleeps isDue admits willing =>
      obtain ⟨rfl, rfl⟩ := same found schedule
      rw [sleeps] at paces
      obtain ⟨asked, found', -⟩ := known_afterTick found
      have ticked : InStep other base none (timers ((e.afterTick t).beats t)) := by
        rw [beats_afterTick]
        exact .tick paces isDue
      have breaks (none : nextAligned? base other.interval e.now = none) :
          Paces other ((e.afterTick t).beats t) .ended := by
        refine .inr ⟨base, _, ticked, fun _ => ⟨e.now, ?_, (nextAligned?_eq_none_iff.mp none).2⟩⟩
        rw [tickTimes_timers, beats_afterTick, tickTimes_answered, tickTimes_ticked,
          List.getLast?_concat]
      rw [tick_fixedRate rate]
      refine paces_armLoop found' breaks (fun due is => ?_) _
      rw [beats_afterTick] at ticked ⊢
      rw [now_afterTick]
      exact .again ticked is
  | ends task found waits cancelled =>
      rw [loopOf_endLoop found]
      exact paces.ended

theorem keepsPace_after {moves : List Move} (config : Config) (subscribers : List Subscriber)
    (t : TaskId) (admitted : (create config subscribers).admits moves = true) :
    KeepsPace t ((create config subscribers).after moves) := by
  have both : Regular t ((create config subscribers).after moves) ∧
      KeepsPace t ((create config subscribers).after moves) := by
    refine schedule_invariant (P := fun e => Regular t e ∧ KeepsPace t e) t ?_ ?_ ?_
      (orderly_create config subscribers) admitted ⟨regular_create .., fun _ _ known => nomatch known⟩
    · exact fun _ _ spares heeds h => ⟨h.1.spares spares heeds, h.2.spares spares⟩
    · exact fun _ _ sets h => ⟨h.1.setsUp sets, .setsUp h.1 sets⟩
    · exact fun _ _ step h => ⟨h.1.step step, h.2.step step⟩
  exact both.2

/-- Once a schedule of fixed rate has armed its timer, it has a pace. -/
theorem Paces.inStep {every : Every} {base : Instant} {beats : List (Instant × Beat)} {l : Loop}
    (h : Paces every beats l) (begun : (armings beats).head?.map (·.1) = some base) :
    ∃ due?, InStep every base due? (timers beats) ∧
      (∀ first due, l = .sleeping first due → first = base ∧ due? = some due) ∧
      (due? = none → BrokeOff every (timers beats)) := by
  rw [← armings_timers] at begun
  have some_timer : timers beats ≠ [] := by
    intro nothing
    rw [nothing] at begun
    cases begun
  have from_base {base' : Instant} {due? : Option Instant}
      (paced : InStep every base' due? (timers beats)) : base' = base :=
    Option.some.inj (paced.head_armings.symm.trans begun)
  cases l with
  | absent => exact absurd h some_timer
  | fresh => exact absurd h some_timer
  | sleeping first due =>
      obtain rfl : first = base := from_base h
      refine ⟨some due, h, ?_, nofun⟩
      rintro _ _ ⟨⟩
      exact ⟨rfl, rfl⟩
  | listening first seen => exact h.elim
  | ended =>
      rcases h with nothing | ⟨first, due?, paced, broke⟩
      · exact absurd nothing some_timer
      · obtain rfl := from_base paced
        exact ⟨due?, paced, nofun, broke⟩

/-! ### Turns -/

section Turn

variable {task : TaskRecord} {every : Every} {base due : Instant}

theorem tickTimes_armLoop (e : Engine) (t : TaskId) (task : TaskRecord) (base : Instant)
    (due? : Option Instant) :
    tickTimes ((e.armLoop t task base due?).beats t) = tickTimes (e.beats t) := by
  cases due? with
  | none => rfl
  | some due => rw [beats_armLoop_some, tickTimes_announced, tickTimes_armed]

/-- What is noted of a schedule is added to what was. -/
theorem beats_passTick (rate : every.tick = .fixedRate) :
    ∃ more, (e.passTick t every).beats t = more ++ e.beats t := by
  have none : ∃ more, e.beats t = more ++ e.beats t := ⟨[], rfl⟩
  unfold passTick
  split
  · exact none
  · split
    · split
      · exact none
      · split
        · rename_i task _ _ base due _ _ _
          rw [tick_fixedRate rate]
          cases nextAligned? base every.interval e.now with
          | none => exact ⟨_ :: [_], beats_afterTick e t⟩
          | some due =>
              rw [beats_armLoop_some, beats_afterTick]
              exact ⟨_ :: _ :: _ :: [_], rfl⟩
        · exact none
    · exact none

/-- In its first turn a schedule arms its timer. -/
theorem armings_of_fresh (known : e.tasks[t]? = some task)
    (periodic : task.spec.schedule = .every every) (rate : every.tick = .fixedRate)
    (fresh : task.loop = .fresh) (paces : Paces every (e.beats t) task.loop)
    (is : e.firstTick? every = some due) :
    (armings ((e.turnLoop t).beats t)).head? = some (e.now, due) := by
  have none : armings (e.beats t) = [] := by
    rw [fresh] at paces
    have nothing : timers (e.beats t) = [] := paces
    rw [← armings_timers, nothing]
    rfl
  have turn : e.turnLoop t = (e.armLoop t task e.now (e.firstTick? every)).passTick t every := by
    rw [turnLoop, known]
    simp only [periodic, fresh]
    rfl
  obtain ⟨more, beats⟩ := beats_passTick (e := e.armLoop t task e.now (some due)) (t := t) rate
  have announced : armings [(e.now, .announced)] = [] := rfl
  rw [turn, is, beats, beats_armLoop_some, armings_append, ← List.singleton_append, armings_append,
    armings_armed, none, announced]
  rfl

/-- When its timer is due a schedule ticks. -/
theorem tickTimes_of_due (known : e.tasks[t]? = some task)
    (periodic : task.spec.schedule = .every every) (rate : every.tick = .fixedRate)
    (going : e.isCancelled e.runToken = false) (sleeps : task.loop = .sleeping base due)
    (isDue : due.isDue e.now = true) :
    tickTimes ((e.turnLoop t).beats t) = tickTimes (e.beats t) ++ [e.now] := by
  have turn : e.turnLoop t = e.tick t task every base := by
    rw [turnLoop, known]
    simp only [periodic, sleeps, passTick, known, going, isDue, Bool.false_eq_true, if_false, if_true]
  rw [turn, tick_fixedRate rate, tickTimes_armLoop, beats_afterTick, tickTimes_answered,
    tickTimes_ticked]

end Turn

/-- **Fixed rate neither drifts nor catches up.**  Let a schedule of fixed rate have taken its first
turn at `base`, whatever happened since, with whatever stalls, runs and requests of others; and let
its ticks be within the distance up to which multiples are computed.

Then every timer that it armed was due at `base` plus a multiple of the interval, the first of them at
`base` itself if it starts immediately and one interval later if not.  It ticked when such a multiple
was reached, at most once for each, and armed the next timer at once, for the first multiple strictly
after that, unless the clock cannot show an instant one interval after the tick.  So the multiples
increase strictly, and the instants of its requests do too.  The timer that it sleeps for is the last of
these.

Unless the run token is cancelled, the turns of the schedule make it so: it arms its first timer, as
long as the clock can show the instant that it is armed for, and it ticks when the timer is due. -/
theorem fixed_rate_never_catches_up (config : Config) (subscribers : List Subscriber)
    (moves : List Move) (admitted : (create config subscribers).admits moves = true) (t : TaskId)
    (task : TaskRecord) (every : Every)
    (known : ((create config subscribers).after moves).tasks[t]? = some task)
    (periodic : task.spec.schedule = .every every) (rate : every.tick = .fixedRate)
    (nonzero : 0 < every.interval.ns) :
    let e := (create config subscribers).after moves
    let armed := armings (e.beats t)
    let ticks := tickTimes (e.beats t)
    (∀ base, armed.head?.map (·.1) = some base →
      (∀ tick ∈ ticks,
        ((tick.ns - base.ns) / every.interval.ns + 1) * every.interval.ns ≤ maxOffset) →
      ∃ ks : List Nat,
        (armed.map (·.2.ns) = ks.map fun k => base.ns + k * every.interval.ns) ∧
        ks.head? = some (if every.startImmediately then 0 else 1) ∧
        (∀ (n : Nat) (tick : Instant), ticks[n]? = some tick →
          (∃ k, ks[n]? = some k ∧ base.ns + k * every.interval.ns ≤ tick.ns) ∧
          (tick.ns + every.interval.ns < Instant.limit ↔ ∃ k, ks[n + 1]? = some k) ∧
          (∀ k, ks[n + 1]? = some k →
            IsLeast {k : Nat | tick.ns < base.ns + k * every.interval.ns} k) ∧
          ∀ moment due, armed[n + 1]? = some (moment, due) → moment = tick) ∧
        (ks.length = ticks.length ∨ ks.length = ticks.length + 1) ∧
        ks.Pairwise (· < ·) ∧
        ticks.Pairwise (·.ns < ·.ns) ∧
        ∀ first due, task.loop = .sleeping first due → first = base ∧
          ∃ k, ks.getLast? = some k ∧ due.ns = base.ns + k * every.interval.ns) ∧
    (e.isCancelled e.runToken = false →
      (task.loop = .fresh → ∀ due, e.firstTick? every = some due →
        (armings ((e.turnLoop t).beats t)).head? = some (e.now, due)) ∧
      (∀ base due, task.loop = .sleeping base due → due.isDue e.now = true →
        tickTimes ((e.turnLoop t).beats t) = ticks ++ [e.now])) := by
  intro e armed ticks
  have paces := keepsPace_after config subscribers t admitted task every known periodic rate
  refine ⟨fun base begun fits => ?_, fun going => ⟨?_, ?_⟩⟩
  · obtain ⟨due?, paced, sleeps, broke⟩ := paces.inStep begun
    have same : tickTimes (timers (e.beats t)) = ticks := tickTimes_timers _
    obtain ⟨ks, marches, length, last⟩ := paced.marches nonzero (same ▸ fits)
    have goesOn := lt_length_of_shown broke length
    rw [armings_timers, same] at marches
    rw [same] at length goesOn
    have at_most : due?.toList.length ≤ 1 := by
      cases due? with
      | none => exact Nat.zero_le 1
      | some due => exact Nat.le_refl 1
    refine ⟨ks, marches.dues, marches.first, ?_, by omega, marches.increases (by omega),
      marches.ticks_increase (by omega), ?_⟩
    · intro n tick ticked
      have before := (List.getElem?_eq_some_iff.mp ticked).1
      have inside : n < ks.length := by omega
      have here : ks[n]? = some ks[n] := List.getElem?_eq_getElem inside
      refine ⟨⟨ks[n], here, marches.reached n tick _ ticked here⟩, ⟨fun onClock => ?_, ?_⟩,
        fun k => marches.next n tick k ticked, fun moment due => marches.atOnce n tick moment due ticked⟩
      · exact ⟨_, List.getElem?_eq_getElem (goesOn n tick ticked onClock)⟩
      · rintro ⟨k, next⟩
        exact marches.shown n tick k ticked next
    · intro first due asleep
      obtain ⟨rfl, is⟩ := sleeps first due asleep
      exact ⟨rfl, last due is⟩
  · exact fun fresh due is => armings_of_fresh known periodic rate fresh paces is
  · exact fun base due sleeps isDue => tickTimes_of_due known periodic rate going sleeps isDue

/-- A task that is due every two nanoseconds, at once first, and is looked at late. -/
def stalledHistory : List Move :=
  [.add { work := .trivial,
          schedule := .every { interval := ⟨2⟩, tick := .fixedRate, startImmediately := true } },
    .start (.named "t"), .clock ⟨1⟩, .schedule 0, .clock ⟨8⟩, .schedule 0]

/-- The ticks at 5 and 7 are dropped, and the next timer is armed. -/
theorem fixed_rate_never_catches_up_stalled :
    (create {} []).admits stalledHistory = true ∧
    ∃ ks : List Nat, ks.head? = some 0 ∧ ks.Pairwise (· < ·) ∧ (∃ k, ks[2]? = some k ∧ 8 < 1 + k * 2) ∧
      (armings (((create {} []).after stalledHistory).beats 0)).map (·.2.ns) =
        ks.map (fun k => 1 + k * 2) := by
  have admitted : (create {} []).admits stalledHistory = true := by decide
  obtain ⟨task, known, periodic⟩ : ∃ task,
      ((create {} []).after stalledHistory).tasks[0]? = some task ∧ task.spec.schedule =
        .every { interval := ⟨2⟩, tick := .fixedRate, startImmediately := true } :=
    ⟨_, rfl, rfl⟩
  have begun : (armings (((create {} []).after stalledHistory).beats 0)).head?.map (·.1) =
      some ⟨1⟩ := by decide
  have fits : ∀ tick ∈ tickTimes (((create {} []).after stalledHistory).beats 0),
      ((tick.ns - 1) / 2 + 1) * 2 ≤ maxOffset := by decide
  obtain ⟨marches, -⟩ :=
    fixed_rate_never_catches_up {} [] stalledHistory admitted 0 task _ known periodic rfl (by decide)
  obtain ⟨ks, dues, first, each, -, increasing, -⟩ := marches ⟨1⟩ begun fits
  have ticked : (tickTimes (((create {} []).after stalledHistory).beats 0))[1]? = some ⟨8⟩ := by decide
  obtain ⟨-, goesOn, least, -⟩ := each 1 ⟨8⟩ ticked
  obtain ⟨k, next⟩ := goesOn.mp (by decide)
  have ahead : 8 < 1 + k * 2 := (least k next).1
  exact ⟨admitted, ks, first, increasing, ⟨k, next, ahead⟩, dues⟩

end Engine

end TaskEngine
