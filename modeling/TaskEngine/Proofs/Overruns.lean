/-
  TaskEngine/Proofs/Overruns.lean
  ===============================
  **Schedules that run into the end of the clock.**

  A schedule should end only because the run token is cancelled, and tidy up then.  There is one
  other way out: a turn that counts one interval on from an instant breaks the schedule off if the
  clock cannot show the sum (`Engine.overruns`).  Three of its sums are of this kind: the first tick,
  the tick after the end of a run, and the tick one interval from now which fixed rate asks for even
  where it does not need it.  An interval is checked against zero only, so every interval can come to
  that, and one that is as long as the clock comes to it at once.

  `turnLoop_ended_iff` says exactly when a turn ends the schedule.  As long as the clock stays one
  interval away from its end, schedules end by cancellation alone.
-/
import TaskEngine.Proofs.Announcements
import TaskEngine.Proofs.FixedDelay
import TaskEngine.Proofs.FixedRate

namespace TaskEngine

namespace Instant

theorem isDue_self (t : Instant) : t.isDue t = true := (isDue_iff t t).mpr (Nat.le_refl _)

theorem not_isDue_after? {now due : Instant} {d : Duration} (positive : 0 < d.ns)
    (is : now.after? d = some due) : due.isDue now = false := by
  have later := (after?_eq_some.mp is).2
  rw [Bool.eq_false_iff, ne_eq, isDue_iff]
  omega

end Instant

namespace Engine

variable {e e' : Engine} {t : TaskId} {task : TaskRecord} {every : Every} {base due : Instant}
  {due? : Option Instant}

/-! ## 1. Sums beyond the clock -/

/-- The instant from which the next turn of a schedule counts one interval on, if it does. -/
def countsFrom? (e : Engine) (task : TaskRecord) (every : Every) : Option Instant :=
  match task.loop with
  | .fresh =>
      if every.startImmediately && (e.isCancelled e.runToken || every.tick == .fixedDelay) then none
      else some e.now
  | .sleeping base due =>
      if !e.isCancelled e.runToken && due.isDue e.now && every.tick == .fixedRate &&
        base.isDue e.now then some e.now else none
  | .listening _ seen =>
      if !e.isCancelled e.runToken && task.completions != seen then some task.completedAt else none
  | .absent | .ended => none

/-- Whether the next turn of a schedule counts on to an instant that the clock cannot show. -/
def overruns (e : Engine) (task : TaskRecord) (every : Every) : Bool :=
  (e.countsFrom? task every).any fun start => Instant.limit ≤ start.ns + every.interval.ns

theorem overruns_iff (e : Engine) (task : TaskRecord) (every : Every) :
    e.overruns task every = true ↔ ∃ start, e.countsFrom? task every = some start ∧
      Instant.limit ≤ start.ns + every.interval.ns := by
  rw [overruns]
  cases e.countsFrom? task every <;> simp

/-! ## 2. How a turn ends a schedule -/

theorem loopOf_armLoop_ended (known : e.tasks[t]? = some task) (named : TaskRecord) :
    (e.armLoop t named base due?).loopOf t = .ended ↔ due? = none := by
  rw [loopOf_of_known (known_armLoop known named base due?)]
  cases due? <;> simp [TaskRecord.arm]

theorem loopOf_passTick_ended (welcomes : e.Welcomes t) (known : e.tasks[t]? = some task)
    (sleeps : task.loop = .sleeping base due) :
    (e.passTick t every).loopOf t = .ended ↔ e.isCancelled e.runToken = true ∨
      (due.isDue e.now = true ∧ every.tick = .fixedRate ∧
        nextAligned? base every.interval e.now = none) := by
  simp only [passTick, known, sleeps]
  cases cancelled : e.isCancelled e.runToken with
  | true => simp [loopOf_endLoop known]
  | false =>
      obtain ⟨admits, willing⟩ := welcomes cancelled task known (by rw [sleeps]; rfl)
      obtain ⟨asked, found, -⟩ := known_afterTick known
      cases isDue : due.isDue e.now with
      | false => simp [loopOf_of_known known, sleeps]
      | true =>
          rcases tick : every.tick with _ | _
          · simp [tick_fixedDelay tick known admits willing,
              loopOf_of_known (known_updateTask found _)]
          · simp [tick_fixedRate tick, loopOf_armLoop_ended found]

/-- A schedule that arms its timer and looks at it ends if there is no tick to wait for, if it is
cancelled, or if it ticks at once and there is no tick to wait for then. -/
theorem loopOf_armed_passTick_ended (welcomes : e.Welcomes t) (known : e.tasks[t]? = some task)
    (alive : task.loop.isAlive = true) :
    ((e.armLoop t task base due?).passTick t every).loopOf t = .ended ↔
      due? = none ∨ e.isCancelled e.runToken = true ∨
      (due?.any (·.isDue e.now) = true ∧ every.tick = .fixedRate ∧
        nextAligned? base every.interval e.now = none) := by
  have armed := known_armLoop known task base due?
  cases due? with
  | none =>
      have broken : (e.armLoop t task base none).passTick t every = e.armLoop t task base none := by
        rw [passTick, armed]
        rfl
      rw [broken, loopOf_of_known armed]
      simp [TaskRecord.arm]
  | some due =>
      rw [loopOf_passTick_ended (welcomes.armLoop known alive base (some due)) armed rfl,
        isCancelled_armLoop, runToken_armLoop, now_armLoop]
      simp

/-- In its first turn a schedule ends if it is cancelled or if its first sum is beyond the clock. -/
theorem begins_ended_iff (welcomes : e.Welcomes t) (known : e.tasks[t]? = some task)
    (positive : 0 < every.interval.ns) (fresh : task.loop = .fresh) :
    ((e.armLoop t task e.now (e.firstTick? every)).passTick t every).loopOf t = .ended ↔
      e.isCancelled e.runToken = true ∨ e.overruns task every = true := by
  rw [loopOf_armed_passTick_ended welcomes known (by rw [fresh]; rfl), firstTick?, overruns,
    countsFrom?, fresh, nextAligned?_eq_none_iff]
  cases every.startImmediately with
  | true =>
      cases every.tick <;> cases e.isCancelled e.runToken <;> simp [Instant.isDue_self]
  | false =>
      have due? : (e.now.after? every.interval).any (·.isDue e.now) = false := by
        rcases is : e.now.after? every.interval with _ | due
        · rfl
        · exact Instant.not_isDue_after? positive is
      simp [due?, Instant.after?_eq_none, or_comm]

theorem turnLoop_ended_iff (welcomes : e.Welcomes t) (known : e.tasks[t]? = some task)
    (periodic : task.spec.schedule = .every every) (alive : task.loop.isAlive = true)
    (positive : 0 < every.interval.ns)
    (suits : ∀ base seen, task.loop = .listening base seen → every.tick = .fixedDelay) :
    (e.turnLoop t).loopOf t = .ended ↔
      e.isCancelled e.runToken = true ∨ e.overruns task every = true := by
  rw [turnLoop, known]
  simp only [periodic]
  cases loop : task.loop with
  | absent =>
      rw [loop] at alive
      cases alive
  | ended =>
      rw [loop] at alive
      cases alive
  | fresh => exact begins_ended_iff welcomes known positive loop
  | sleeping base due =>
      simp only
      rw [loopOf_passTick_ended welcomes known loop, nextAligned?_eq_none_iff, overruns, countsFrom?,
        loop]
      dsimp only
      cases e.isCancelled e.runToken <;> cases due.isDue e.now <;> cases every.tick <;>
        cases base.isDue e.now <;> simp
  | listening base seen =>
      simp only
      rw [overruns, countsFrom?, loop]
      cases cancelled : e.isCancelled e.runToken with
      | true => simp [loopOf_endLoop known]
      | false =>
          by_cases heard : task.completions = seen
          · simp [heard, loopOf_of_known known, loop]
          · let due? := task.completedAt.after? every.interval
            have armed : ((e.armLoop t task base due?).passTick t every).loopOf t = .ended ↔ _ :=
              loopOf_armed_passTick_ended welcomes known alive
            simp [heard, armed, due?, suits base seen loop, cancelled, Instant.after?_eq_none]

/-! ### In good order -/

/-- What a schedule leaves behind that ends because the run token is cancelled. -/
structure InOrder (e : Engine) (task : TaskRecord) : Prop where
  cancelled : e.isCancelled e.runToken = true
  cleared : task.nextRun = none
  closing : task.status.isClosing = true

theorem inOrder_endLoop (known : e.tasks[t]? = some task)
    (cancelled : e.isCancelled e.runToken = true) :
    ∃ new, (e.endLoop t).tasks[t]? = some new ∧ (e.endLoop t).InOrder new := by
  refine ⟨_, known_endLoop known, cancelled, ?_, ?_⟩ <;>
    (rw [TaskRecord.markStopping]; split)
  · rfl
  · rfl
  · rename_i stopped
    rw [stopped]
    rfl
  · rfl

theorem passTick_of_cancelled (known : e.tasks[t]? = some task)
    (sleeps : task.loop = .sleeping base due) (cancelled : e.isCancelled e.runToken = true) :
    e.passTick t every = e.endLoop t := by
  simp [passTick, known, sleeps, cancelled]

/-- Unless one of its sums is beyond the clock, a schedule ends in good order. -/
theorem turnLoop_inOrder (known : e.tasks[t]? = some task)
    (periodic : task.spec.schedule = .every every) (alive : task.loop.isAlive = true)
    (cancelled : e.isCancelled e.runToken = true) (fits : e.overruns task every = false) :
    ∃ new, (e.turnLoop t).tasks[t]? = some new ∧ (e.turnLoop t).InOrder new := by
  rw [turnLoop, known]
  simp only [periodic]
  cases loop : task.loop with
  | absent =>
      rw [loop] at alive
      cases alive
  | ended =>
      rw [loop] at alive
      cases alive
  | fresh =>
      obtain ⟨due, first⟩ : ∃ due, e.firstTick? every = some due := by
        rw [overruns, countsFrom?, loop] at fits
        rw [firstTick?]
        cases atOnce : every.startImmediately with
        | true => exact ⟨e.now, rfl⟩
        | false =>
            rw [atOnce] at fits
            refine Option.ne_none_iff_exists'.mp fun lost => ?_
            have beyond := Instant.after?_eq_none.mp lost
            simp at fits
            omega
      have cancelled' : (e.armLoop t task e.now (some due)).isCancelled
          (e.armLoop t task e.now (some due)).runToken = true := by
        rw [isCancelled_armLoop, runToken_armLoop, cancelled]
      have armed := known_armLoop known task e.now (some due)
      show ∃ new, ((e.armLoop t task e.now (e.firstTick? every)).passTick t every).tasks[t]? = _ ∧
        ((e.armLoop t task e.now (e.firstTick? every)).passTick t every).InOrder new
      rw [first, passTick_of_cancelled armed rfl cancelled']
      exact inOrder_endLoop armed cancelled'
  | sleeping base due =>
      simp only
      rw [passTick_of_cancelled known loop cancelled]
      exact inOrder_endLoop known cancelled
  | listening base seen =>
      simp only [cancelled, if_true]
      exact inOrder_endLoop known cancelled

/-! ## 3. All histories -/

section History

variable {config : Config} {subscribers : List Subscriber} {moves : List Move}

/-- No sum reaches further than one interval from now. -/
theorem countsFrom?_le (regular : Regular t e) (known : e.tasks[t]? = some task) {start : Instant}
    (counts : e.countsFrom? task every = some start) : start.ns ≤ e.now.ns := by
  rw [countsFrom?] at counts
  split at counts
  · split at counts
    · cases counts
    · cases counts
      exact Nat.le_refl _
  · split at counts
    · cases counts
      exact Nat.le_refl _
    · cases counts
  · split at counts
    · cases counts
      exact (regular.books task known).timely
    · cases counts
  · cases counts
  · cases counts

/-- A schedule ends by a turn of its own and by nothing else. -/
theorem perform_ended_iff (admitted : (create config subscribers).admits moves = true) {m : Move}
    (allowed : ((create config subscribers).after moves).allows m = true)
    (known : ((create config subscribers).after moves).tasks[t]? = some task)
    (periodic : task.spec.schedule = .every every) (alive : task.loop.isAlive = true)
    (positive : 0 < every.interval.ns) :
    let e := (create config subscribers).after moves
    (e.perform m).loopOf t = .ended ↔
      m = .schedule t ∧ (e.isCancelled e.runToken = true ∨ e.overruns task every = true) := by
  intro e
  have orderly : e.Orderly := (orderly_create config subscribers).after admitted
  have regular : Regular t e := (regular_create ..).after (orderly_create ..) admitted
  have paces := keepsPace_after config subscribers t admitted task every known periodic
  have suits (base : Instant) (seen : Nat) (listens : task.loop = .listening base seen) :
      every.tick = .fixedDelay := by
    cases tick : every.tick with
    | fixedDelay => rfl
    | fixedRate =>
        have none := paces tick
        rw [listens] at none
        exact none.elim
  have here := turnLoop_ended_iff (orderly.welcomes t) known periodic alive positive suits
  constructor
  · intro ended
    by_cases own : m = .schedule t
    · subst own
      exact ⟨rfl, here.mp ended⟩
    · exfalso
      rcases unfolds_perform_of_ne t orderly allowed own with left | sets
      · rw [left.loopOf, loopOf_of_known known] at ended
        rw [ended] at alive
        cases alive
      · have absent := sets.absent regular.young
        rw [loopOf_of_known known] at absent
        rw [absent] at alive
        cases alive
  · rintro ⟨rfl, ends⟩
    exact here.mpr ends

/-- As long as the clock is further than one interval from its end, a schedule that has ended has
done so because the run token is cancelled. -/
theorem inOrder_of_ended (admitted : (create config subscribers).admits moves = true)
    (known : ((create config subscribers).after moves).tasks[t]? = some task)
    (periodic : task.spec.schedule = .every every) (positive : 0 < every.interval.ns)
    (ended : task.loop = .ended)
    (fits : ((create config subscribers).after moves).now.ns + every.interval.ns < Instant.limit) :
    ((create config subscribers).after moves).InOrder task := by
  have new := regular_create config subscribers t
  have orderly := orderly_create config subscribers
  have at_end := new.after orderly admitted
  have shown (other : Every) (is : task.spec.schedule = .every other) :
      (((create config subscribers).after moves).now.after? other.interval).isSome = true := by
    rw [periodic] at is
    cases is
    rw [Option.isSome_iff_ne_none, ne_eq, Instant.after?_eq_none]
    omega
  obtain ⟨cleared, closing⟩ := (at_end.books task known).tidy ended shown
  refine ⟨?_, cleared, closing⟩
  -- the turn that ended the schedule found the run token cancelled, and it stays so
  obtain ⟨before, m, rest, rfl, still, ends⟩ :=
    origin_of_after (P := fun e => e.loopOf t = .ended) (e := create config subscribers) nofun
      ((loopOf_of_known known).trans ended)
  obtain ⟨first, next⟩ := (admits_append ..).mp admitted
  obtain ⟨allowed, rest'⟩ := (admits_cons ..).mp next
  have mid := new.after orderly first
  have midway := orderly.after first
  have alive : (((create config subscribers).after before).loopOf t).isAlive = true := by
    have onward := mid.onward midway allowed
    rw [ends] at onward
    generalize ((create config subscribers).after before).loopOf t = l at onward still ⊢
    cases onward with
    | same => exact absurd rfl still
    | goesOn alive begun => exact alive
  obtain ⟨was, known'⟩ : ∃ was, ((create config subscribers).after before).tasks[t]? = some was := by
    refine Option.ne_none_iff_exists'.mp fun unknown => ?_
    rw [loopOf_of_unknown unknown] at alive
    cases alive
  rw [loopOf_of_known known'] at alive
  obtain ⟨new', found, later⟩ := grows_after next t was known'
  rw [← after_append] at found
  obtain rfl : task = new' := Option.some.inj (known.symm.trans found)
  rw [later.spec] at periodic
  have cause := ((perform_ended_iff first allowed known' periodic alive positive).mp ends).2
  have past := now_le_after midway next
  rw [← after_append] at past
  have cancelled : ((create config subscribers).after before).isCancelled
      ((create config subscribers).after before).runToken = true := by
    refine cause.resolve_right fun overrun => ?_
    obtain ⟨start, counts, beyond⟩ := (overruns_iff ..).mp overrun
    have reached := countsFrom?_le mid known' counts
    omega
  have started : ((create config subscribers).after before).phase ≠ .notStarted := by
    intro fresh
    have absent := mid.young fresh
    rw [loopOf_of_known known'] at absent
    rw [absent] at alive
    cases alive
  rw [after_append, (runToken_after midway.watched started next).1]
  exact turns_after (P := fun e => e.isCancelled _ = true) (fun _ _ _ turn => turn.isCancelled)
    midway.watched next cancelled

end History

/-- An engine in which the next turn of the schedule counts on from the given instant. -/
def brink (every : Every) (horizon : Instant) : List Move :=
  let set : List Move := [.add { work := .trivial, schedule := .every every }, .start (.named "t")]
  if every.startImmediately && every.tick == .fixedDelay then
    set ++ [.schedule 0, .clock horizon, .finish ⟨0, 1⟩ .succeeded]
  else set ++ [.clock horizon]

theorem countsFrom?_brink (positive : 0 < every.interval.ns) (horizon : Instant) :
    let e := (create {} []).after (brink every horizon)
    (create {} []).admits (brink every horizon) = true ∧ e.now = horizon ∧
    e.isCancelled e.runToken = false ∧
    ∃ task, e.tasks[0]? = some task ∧ task.spec.schedule = .every every ∧
      task.loop.isAlive = true ∧ e.countsFrom? task every = some horizon := by
  obtain ⟨⟨n⟩, tick, atOnce⟩ := every
  obtain ⟨n, rfl⟩ : ∃ m, n = m + 1 := ⟨n - 1, (Nat.sub_add_cancel positive).symm⟩
  have onward : decide (0 ≤ horizon.ns) = true := decide_eq_true (Nat.zero_le _)
  have before (e : Engine) (m m' : Move) (later : List Move) (first : e.allows m = true)
      (second : (e.perform m).allows m' = true)
      (rest : ((e.perform m).perform m').admits later = true) : e.admits (m :: m' :: later) = true :=
    (admits_cons ..).mpr ⟨first, (admits_cons ..).mpr ⟨second, rest⟩⟩
  cases tick <;> cases atOnce
  case fixedDelay.true =>
    -- the schedule has listened, and counts on from the end of its first run
    refine ⟨?_, rfl, rfl, _, rfl, rfl, rfl, rfl⟩
    exact before _ _ _ _ rfl rfl (before _ _ _ _ rfl onward rfl)
  all_goals
    -- the schedule has not taken a turn yet, and counts on from its first one
    refine ⟨?_, rfl, rfl, _, rfl, rfl, rfl, rfl⟩
    exact before _ _ _ _ rfl rfl ((admits_cons ..).mpr ⟨onward, rfl⟩)

theorem Steady.isCancelled_runToken (steady : Steady e e') :
    e'.isCancelled e'.runToken = e.isCancelled e.runToken := by
  rw [isCancelled, isCancelled, Cancellation.isCancelled, Cancellation.isCancelled, steady.cancelled,
    steady.runToken]

theorem LoopSteps.now (steps : LoopSteps t e e') : e'.now = e.now := by
  induction steps with
  | refl => rfl
  | tail _ step ih => exact step.now.trans ih

/-- One more turn at the brink breaks the schedule off, though nothing is cancelled. -/
theorem breaksOff_brink (positive : 0 < every.interval.ns) {horizon : Instant}
    (beyond : Instant.limit ≤ horizon.ns + every.interval.ns) :
    let moves := brink every horizon ++ [.schedule 0]
    let e := (create {} []).after moves
    (create {} []).admits moves = true ∧ e.now = horizon ∧
    ∃ task, e.tasks[0]? = some task ∧ task.spec.schedule = .every every ∧ task.loop = .ended ∧
      ¬e.InOrder task := by
  intro moves e
  obtain ⟨admitted, now, going, task, known, periodic, alive, counts⟩ :=
    countsFrom?_brink positive horizon
  have once : e = ((create {} []).after (brink every horizon)).perform (.schedule 0) := after_append ..
  have ended := (perform_ended_iff (m := .schedule 0) admitted rfl known periodic alive positive).mpr
    ⟨rfl, .inr ((overruns_iff ..).mpr ⟨horizon, counts, beyond⟩)⟩
  have steady : Steady ((create {} []).after (brink every horizon)) e :=
    once ▸ steady_perform rfl (by rintro _ ⟨⟩) rfl
  have next : ((create {} []).after (brink every horizon)).admits [.schedule 0] = true :=
    (admits_cons ..).mpr ⟨rfl, rfl⟩
  have welcomes := ((orderly_create {} []).after admitted).welcomes 0
  have same : e.now = horizon :=
    (congrArg Engine.now once).trans ((LoopSteps.now (loopSteps_turnLoop welcomes)).trans now)
  obtain ⟨new, found, later⟩ := grows_after next 0 task known
  rw [← after_append] at found
  refine ⟨(admits_append ..).mpr ⟨admitted, next⟩, same, new, found,
    later.spec ▸ periodic, ?_, fun inOrder => ?_⟩
  · rw [← loopOf_of_known found, ← ended]
    exact congrArg (loopOf · 0) once
  · have cancelled := steady.isCancelled_runToken.symm.trans inOrder.cancelled
    rw [going] at cancelled
    cases cancelled

/-- **Schedules end by cancellation as long as the clock lasts.**  For every interval that is not
zero, with either way of ticking and with a tick at once or not: exactly if the clock stays further
than one interval from its end, whatever happens, a schedule ends only because the run token is
cancelled, its next run is cleared then, and its task is stopping or has stopped.

More closely, in every history and for every move: a schedule that goes on ends exactly by a turn of
its own that finds the run token cancelled or counts on to an instant that the clock cannot show; and
it ends in good order unless it is the latter. -/
theorem schedules_end_by_cancellation_iff (every : Every) (nonzero : every.interval ≠ .zero)
    (horizon : Instant) :
    ((∀ (config : Config) (subscribers : List Subscriber) (moves : List Move) (t : TaskId)
        (task : TaskRecord),
        (create config subscribers).admits moves = true →
        ((create config subscribers).after moves).now.ns ≤ horizon.ns →
        ((create config subscribers).after moves).tasks[t]? = some task →
        task.spec.schedule = .every every → task.loop = .ended →
        ((create config subscribers).after moves).InOrder task) ↔
      horizon.ns + every.interval.ns < Instant.limit) ∧
    ∀ (config : Config) (subscribers : List Subscriber) (moves : List Move) (m : Move) (t : TaskId)
      (task : TaskRecord),
      (create config subscribers).admits (moves ++ [m]) = true →
      ((create config subscribers).after moves).tasks[t]? = some task →
      task.spec.schedule = .every every → task.loop.isAlive = true →
      let e := (create config subscribers).after moves
      ((e.perform m).loopOf t = .ended ↔
        m = .schedule t ∧ (e.isCancelled e.runToken = true ∨ e.overruns task every = true)) ∧
      (m = .schedule t → e.isCancelled e.runToken = true → e.overruns task every = false →
        ∃ new, (e.perform m).tasks[t]? = some new ∧ (e.perform m).InOrder new) := by
  have positive : 0 < every.interval.ns :=
    Nat.pos_of_ne_zero fun zero => nonzero (congrArg Duration.mk zero)
  refine ⟨⟨fun all => ?_, fun fits => ?_⟩, ?_⟩
  · by_contra reached
    obtain ⟨admitted, now, task, known, periodic, ended, disorder⟩ :=
      breaksOff_brink positive (Nat.le_of_not_lt reached)
    exact disorder (all {} [] _ 0 task admitted (Nat.le_of_eq (congrArg _ now)) known periodic ended)
  · intro config subscribers moves t task admitted early known periodic ended
    exact inOrder_of_ended admitted known periodic positive ended (by omega)
  · intro config subscribers moves m t task admitted known periodic alive e
    obtain ⟨first, next⟩ := (admits_append ..).mp admitted
    have allowed := ((admits_cons ..).mp next).1
    refine ⟨perform_ended_iff first allowed known periodic alive positive, ?_⟩
    rintro rfl cancelled fits
    exact turnLoop_inOrder known periodic alive cancelled fits

theorem schedules_end_by_cancellation_iff_cancelled :
    ((create {} []).after (tickingHistory ++ [.schedule 0])).loopOf 0 = .ended ∧
    ∃ task, ((create {} []).after (tickingHistory ++ [.schedule 0])).tasks[0]? = some task ∧
      ((create {} []).after (tickingHistory ++ [.schedule 0])).InOrder task := by
  have admitted : (create {} []).admits (tickingHistory ++ [.schedule 0]) = true := by decide
  obtain ⟨task, known, periodic, ended⟩ : ∃ task,
      ((create {} []).after (tickingHistory ++ [.schedule 0])).tasks[0]? = some task ∧
      task.spec.schedule = .every { interval := ⟨2⟩ } ∧ task.loop = .ended := ⟨_, rfl, rfl, rfl⟩
  have early : ((create {} []).after (tickingHistory ++ [.schedule 0])).now.ns ≤ (⟨3⟩ : Instant).ns := by
    decide
  have all := (schedules_end_by_cancellation_iff { interval := ⟨2⟩ } (by decide) ⟨3⟩).1.mpr
    (by decide +kernel)
  exact ⟨(loopOf_of_known known).trans ended, task, known,
    all {} [] _ 0 task admitted early known periodic ended⟩

/-- A task whose interval is as long as a duration can be, and which is to run at once; its first run
ends in the instant in which it began. -/
def endlessHistory : List Move :=
  [.add ((Spec.every .trivial (.ofParts (Nat.pow 2 64 - 1) 0)).withStartImmediately true),
    .start (.named "t"), .schedule 0, .finish ⟨0, 1⟩ .succeeded, .schedule 0]

/-- Its schedule has ended, with no token cancelled, with a next run that has passed, and with a task
that is idle. -/
theorem endless_schedule_breaks_off :
    (create {} []).admits endlessHistory = true ∧
    ((create {} []).after endlessHistory).cancellation.cancelled = [] ∧
    ∃ task, ((create {} []).after endlessHistory).tasks[0]? = some task ∧ task.loop = .ended ∧
      task.nextRun = some .zero ∧ task.status = .idle := by
  exact ⟨by decide, by decide +kernel, _, rfl, by decide +kernel, by decide +kernel, by decide +kernel⟩

end Engine

end TaskEngine
