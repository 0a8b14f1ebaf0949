/-
  TaskEngine/Proofs/FixedDelay.lean
  =================================
  **Fixed delay counts from the end of a run.**

  What is known of where a schedule of fixed delay stands is read off its rounds: how they begin, how
  each is anchored on the round before, and what the next turn of the schedule adds to them.

  Several ends between two turns of the schedule count as one, and the next timer is armed for an
  interval after the last of them.  A world in which time passes only while nobody can take a turn
  (`World.Patient`), as an executor has it (`World.patient_advance`), leaves no time between them: they
  are all in the instant of the first (`World.fixed_delay_counts_from_the_end`).
-/
import TaskEngine.Proofs.Acts
import TaskEngine.Proofs.Listening

namespace TaskEngine

namespace Engine

variable {prompt : Prop} {every : Every} {e e' : Engine} {t : TaskId}

/-! ## 1. The rounds of a schedule -/

section Stood

variable {task : TaskRecord}

theorem Stands.starts (h : Stands prompt every t e task) {first : Round}
    (oldest : (e.roundsOf t).getLast? = some first) :
    first.due.ns = first.armed.ns + if every.startImmediately then 0 else every.interval.ns := by
  rcases h.kept with none | ⟨base, at', inTurn, past⟩
  · rw [none] at oldest
    cases oldest
  · obtain ⟨_, last, starts⟩ := inTurn.getLast
    obtain rfl := Option.some.inj (last.symm.trans oldest)
    rw [starts.armed]
    exact starts.due

theorem Stands.ordered (h : Stands prompt every t e task) :
    ∀ round ∈ e.roundsOf t, round.Orderly e.now := by
  rcases h.kept with none | ⟨base, at', inTurn, past⟩
  · rw [none]
    exact fun _ mem => absurd mem List.not_mem_nil
  · exact fun round mem => (inTurn.orderly round mem).later past

theorem Stands.chain (h : Stands prompt every t e task) :
    (e.roundsOf t).reverse.IsChain fun round next => round.LeadsTo prompt every next := by
  rw [List.isChain_reverse]
  rcases h.kept with none | ⟨base, at', inTurn, past⟩
  · rw [none]
    exact .nil
  · exact inTurn.chain

/-- Every round is anchored on the round before. -/
theorem Stands.anchors (h : Stands prompt every t e task) {n : Nat} {round next : Round}
    (here : (e.roundsOf t).reverse[n]? = some round)
    (after : (e.roundsOf t).reverse[n + 1]? = some next) :
    ∃ tick first latest, round.Anchors every next tick first latest ∧
      (prompt → next.armed = first ∧ latest = first) := by
  obtain ⟨inside, rfl⟩ := List.getElem?_eq_some_iff.mp after
  obtain ⟨_, rfl⟩ := List.getElem?_eq_some_iff.mp here
  exact (List.isChain_iff_getElem.mp h.chain n inside).anchors
    (h.ordered _ (List.mem_reverse.mp (List.getElem_mem _)))
    (h.ordered _ (List.mem_reverse.mp (List.getElem_mem _)))

end Stood

/-! ### Turns -/

section Turn

variable {task : TaskRecord} {base due : Instant}

/-- A schedule that sleeps ticks when its timer is due. -/
theorem roundsOf_passTick {round : Round} {rest : List Round} (welcomes : e.Welcomes t)
    (going : e.isCancelled e.runToken = false) (known : e.tasks[t]? = some task)
    (delay : every.tick = .fixedDelay) (sleeps : task.loop = .sleeping base due)
    (newest : e.roundsOf t = round :: rest) :
    (e.passTick t every).roundsOf t =
      { round with ticks := (if due.isDue e.now then [e.now] else []) ++ round.ticks } :: rest := by
  obtain ⟨admits, willing⟩ := welcomes going task known (by rw [sleeps]; rfl)
  simp only [passTick, known, sleeps, going, Bool.false_eq_true, if_false]
  split
  · rw [tick_fixedDelay delay known admits willing]
    show rounds ((e.afterTick t).strokes t) = _
    rw [strokes_afterTick, rounds_cons, ← roundsOf, newest]
    rfl
  · exact newest

/-- A schedule that arms its timer begins a round, and ticks in the same turn if the timer is due. -/
theorem roundsOf_armLoop (welcomes : e.Welcomes t) (going : e.isCancelled e.runToken = false)
    (known : e.tasks[t]? = some task) (delay : every.tick = .fixedDelay)
    (alive : task.loop.isAlive = true) (base due : Instant) :
    ((e.armLoop t task base (some due)).passTick t every).roundsOf t =
      { armed := e.now, due, ticks := if due.isDue e.now then [e.now] else [] } :: e.roundsOf t := by
  have read : (e.armLoop t task base (some due)).roundsOf t =
      { armed := e.now, due } :: e.roundsOf t := by
    rw [roundsOf, strokes_armLoop_some, rounds_cons, Round.read, roundsOf]
  have going' : (e.armLoop t task base (some due)).isCancelled
      (e.armLoop t task base (some due)).runToken = false := by
    rw [isCancelled_armLoop, runToken_armLoop, going]
  have passes := roundsOf_passTick (welcomes.armLoop known alive base (some due)) going'
    (known_armLoop known task base (some due)) delay rfl read
  rw [passes, now_armLoop, List.append_nil]

variable (h : Stands prompt every t e task) (welcomes : e.Welcomes t)
  (going : e.isCancelled e.runToken = false) (known : e.tasks[t]? = some task)
  (periodic : task.spec.schedule = .every every) (delay : every.tick = .fixedDelay)

include h welcomes going known periodic delay

/-- In its first turn a schedule arms its timer. -/
theorem Stands.begins (fresh : task.loop = .fresh) (is : e.firstTick? every = some due) :
    ∃ ticks, (e.turnLoop t).roundsOf t = [{ armed := e.now, due, ticks }] := by
  have none : e.roundsOf t = [] := by simpa only [Stands, fresh] using h
  have turn : e.turnLoop t = (e.armLoop t task e.now (e.firstTick? every)).passTick t every := by
    rw [turnLoop, known]
    simp only [periodic, fresh]
    rfl
  rw [turn, is, roundsOf_armLoop welcomes going known delay (by rw [fresh]; rfl), none]
  exact ⟨_, rfl⟩

/-- When its timer is due a schedule ticks. -/
theorem Stands.ticks (sleeps : task.loop = .sleeping base due) (isDue : due.isDue e.now = true) :
    ∃ armed rest, e.roundsOf t = { armed, due } :: rest ∧
      (e.turnLoop t).roundsOf t = { armed, due, ticks := [e.now] } :: rest := by
  simp only [Stands, sleeps] at h
  obtain ⟨⟨armed, rest, newest⟩, -⟩ := h
  have turn : e.turnLoop t = e.passTick t every := by
    rw [turnLoop, known]
    simp only [periodic, sleeps]
  refine ⟨armed, rest, newest, ?_⟩
  rw [turn, roundsOf_passTick welcomes going known delay sleeps newest, if_pos isDue]
  rfl

/-- When runs of its task have ended a schedule arms its timer anew. -/
theorem Stands.goesOn {seen : Nat} (listens : task.loop = .listening base seen)
    (heard : task.completions ≠ seen) :
    ∃ round rest latest, e.roundsOf t = round :: rest ∧ round.ends.head? = some latest ∧
      ∀ due, latest.after? every.interval = some due →
        ∃ ticks, (e.turnLoop t).roundsOf t = { armed := e.now, due, ticks } :: e.roundsOf t := by
  simp only [Stands, listens] at h
  obtain ⟨tick, ends, attends⟩ := h
  obtain ⟨armed, due, rest, newest⟩ := attends.rounds
  cases ends with
  | nil => exact absurd attends.counted heard
  | cons latest ends =>
      refine ⟨_, rest, latest, newest, rfl, fun due is => ?_⟩
      have turn : e.turnLoop t =
          (e.armLoop t task base (task.completedAt.after? every.interval)).passTick t every := by
        rw [turnLoop, known]
        simp only [periodic, listens, going, heard, Bool.false_eq_true, if_false]
      rw [turn, attends.latest latest rfl, is,
        roundsOf_armLoop welcomes going known delay (by rw [listens]; rfl)]
      exact ⟨_, rfl⟩

end Turn

/-! ## 2. The clock -/

theorem now_le_after {moves : List Move} (orderly : e.Orderly) (admitted : e.admits moves = true) :
    e.now.ns ≤ (e.after moves).now.ns :=
  schedule_invariant (P := fun e' => e.now.ns ≤ e'.now.ns) 0
    (fun _ _ spares _ h => Nat.le_trans h spares.time) (fun _ _ sets h => sets.now ▸ h)
    (fun _ _ step h => step.now ▸ h) orderly admitted (Nat.le_refl _)

theorem prompt_append (t : TaskId) (e : Engine) (first second : List Move) :
    Prompt t e (first ++ second) ↔ Prompt t e first ∧ Prompt t (e.after first) second := by
  induction first generalizing e with
  | nil => simp [Prompt]
  | cons m first ih => rw [List.cons_append, Prompt, Prompt, ih, after_cons, and_assoc]

/-- Where no time passes at all, every schedule is prompt. -/
theorem prompt_of_still {moves : List Move} (orderly : e.Orderly) (admitted : e.admits moves = true)
    (still : (e.after moves).now = e.now) (t : TaskId) : Prompt t e moves := by
  induction moves generalizing e with
  | nil => trivial
  | cons m moves ih =>
      obtain ⟨allowed, rest⟩ := (admits_cons ..).mp admitted
      have same : (e.perform m).now = e.now := by
        have first : e.admits [m] = true := (admits_cons ..).mpr ⟨allowed, rfl⟩
        have before := now_le_after orderly first
        have after := now_le_after (orderly.perform allowed) rest
        rw [← after_cons, still] at after
        exact congrArg Instant.mk (Nat.le_antisymm after before)
      exact ⟨fun _ => same, ih (orderly.perform allowed) rest (still.trans same.symm)⟩

end Engine

/-- When nobody is about to take a turn, nobody can. -/
theorem Executor.not_able_of_idle {σ ι : Type} [BEq ι] [LawfulBEq ι] (m : Machine σ ι)
    (x : Executor σ ι) (idle : (x.refresh m).ready = []) :
    ∀ i ∈ m.live x.state, m.able x.state i = false := by
  intro i live
  obtain ⟨ready, waiting⟩ := List.append_eq_nil_iff.mp idle
  rw [List.filter_eq_nil_iff] at waiting
  apply Bool.eq_false_iff.mpr
  apply waiting
  by_cases parked : i ∈ x.parked
  · exact List.mem_append_left _ parked
  · refine List.mem_append_right _ (List.mem_filter.mpr ⟨live, ?_⟩)
    simp [ready, parked]

namespace World

open Engine

variable {w w' : World}

/-- One thing that happens in a world in which the clock is kept as an executor keeps it: time passes
only while nobody can take a turn. -/
inductive Patient : World → World → Prop where
  | atOnce {w w' : World} (step : Step w w') (still : w'.now = w.now) : Patient w w'
  | clock (w : World) (now : Instant) (later : w.now.ns ≤ now.ns)
      (idle : ∀ p ∈ w.live, w.able p = false) : Patient w (machine.setNow now w)

theorem Patient.step (h : Patient w w') : Step w w' := by
  cases h with
  | atOnce step still => exact step
  | clock now later idle => exact .machine (.clock w now later)

theorem steps_of_patient (h : Relation.ReflTransGen Patient w w') : Relation.ReflTransGen Step w w' :=
  h.lift id fun _ _ => Patient.step

/-- When an executor with nothing to do moves the clock, it is patient. -/
theorem patient_advance (x : Executor World Process) (idle : (x.refresh machine).ready = [])
    {now : Instant} (later : x.state.now.ns ≤ now.ns) :
    Patient x.state (x.advance machine now).state :=
  .clock x.state now later (x.not_able_of_idle machine idle)

/-- A schedule that can take its turn is one of the processes that have not ended. -/
theorem schedule_mem_live {t : TaskId} (able : w.engine.isAble t = true) : .schedule t ∈ w.live := by
  obtain ⟨task, known, can⟩ := (Option.any_eq_true ..).mp able
  have alive : task.loop.isAlive = true := by
    unfold Engine.canTurnLoop at can
    cases stage : task.loop <;> rw [stage] at can <;> first | rfl | cases can
  have listed : .schedule t ∈
      (w.engine.tasks.zipIdx.filter fun p => p.1.loop.isAlive).map fun p => Process.schedule p.2 :=
    List.mem_map.mpr ⟨(task, t), List.mem_filter.mpr
      ⟨List.mem_zipIdx_iff_getElem?.mpr known, alive⟩, rfl⟩
  simp only [live, List.mem_append]
  exact .inl (.inl (.inl (.inr listed)))

/-- Where the clock is kept like that, no schedule lets time pass. -/
theorem Patient.prompt (h : Patient w w') (orderly : w.Orderly) (sane : w.engine.Orderly)
    (t : TaskId) : ∃ moves, w.engine.admits moves = true ∧ w.engine.after moves = w'.engine ∧
      Prompt t w.engine moves := by
  cases h with
  | atOnce step still =>
      obtain ⟨moves, admitted, is⟩ := step.leads orderly
      exact ⟨moves, admitted, is, prompt_of_still sane admitted (is ▸ still) t⟩
  | clock now later idle =>
      refine ⟨[.clock now], (Engine.admits_cons ..).mpr ⟨decide_eq_true later, rfl⟩, rfl,
        fun able => ?_, trivial⟩
      cases (idle (.schedule t) (schedule_mem_live able)).symm.trans able

section Reached

variable {config : Config} {subscribers : List Subscriber} {hook : Option Hook} {handler : Handler}

theorem prompt_reached (t : TaskId)
    (reached : Relation.ReflTransGen Patient (create config subscribers hook handler) w) :
    ∃ moves, (Engine.create config subscribers).admits moves = true ∧
      (Engine.create config subscribers).after moves = w.engine ∧
      Prompt t (Engine.create config subscribers) moves := by
  suffices both : w.Orderly ∧ ∃ moves, (Engine.create config subscribers).admits moves = true ∧
      (Engine.create config subscribers).after moves = w.engine ∧
      Prompt t (Engine.create config subscribers) moves from both.2
  induction reached with
  | refl => exact ⟨orderly_create config subscribers hook handler, [], rfl, rfl, trivial⟩
  | tail _ last ih =>
      obtain ⟨orderly, moves, admitted, is, prompt⟩ := ih
      have sane := (Engine.orderly_create config subscribers).after admitted
      rw [is] at sane
      obtain ⟨more, admitted', is', prompt'⟩ := last.prompt orderly sane t
      rw [← is] at admitted' is' prompt'
      exact ⟨last.step.orderly orderly, moves ++ more, (admits_append ..).mpr ⟨admitted, admitted'⟩,
        (after_append ..).trans is', (prompt_append ..).mpr ⟨prompt, prompt'⟩⟩

/-- **Fixed delay counts from the end of a run.**  Whatever has happened, with whatever requests of
others, runs and owed runs, read the rounds of a schedule of fixed delay, the oldest first.

The first timer is armed in the first turn, for that instant if the schedule starts immediately and
for one interval later if not.  In every round the schedule ticks once at most, not before the timer
is due.  A round leads to the next when it has ticked and then runs of its task have ended, the first
of them at `first` and the last at `latest`: the next timer is armed for exactly one interval after
`latest`, so the next tick is at least one interval later than the tick, and than each of those ends.
Where time passes only while nobody can take a turn, they have all ended at `first`, and that is when
the next timer is armed.

Unless the run token is cancelled, the turns of the schedule make it so: it arms its first timer, it
ticks when the timer is due, and it arms the next one when a run has ended, as long as the clock can
show the instant that it is armed for. -/
theorem fixed_delay_counts_from_the_end
    (reached : Relation.ReflTransGen Step (create config subscribers hook handler) w) (t : TaskId)
    (task : TaskRecord) (every : Every) (known : w.engine.tasks[t]? = some task)
    (periodic : task.spec.schedule = .every every) (delay : every.tick = .fixedDelay) :
    let e := w.engine
    let rounds := (e.roundsOf t).reverse
    (∀ first, rounds.head? = some first →
      first.due.ns = first.armed.ns + if every.startImmediately then 0 else every.interval.ns) ∧
    (∀ round ∈ rounds, round.Orderly e.now) ∧
    (∀ (n : Nat) (round next : Round), rounds[n]? = some round → rounds[n + 1]? = some next →
      ∃ tick first latest, round.Anchors every next tick first latest ∧
        (Relation.ReflTransGen Patient (create config subscribers hook handler) w →
          next.armed = first ∧ next.due.ns = first.ns + every.interval.ns)) ∧
    (e.isCancelled e.runToken = false →
      (task.loop = .fresh → ∀ due, e.firstTick? every = some due →
        ∃ ticks, (e.turnLoop t).roundsOf t = [{ armed := e.now, due, ticks }]) ∧
      (∀ base due, task.loop = .sleeping base due → due.isDue e.now = true →
        ∃ armed rest, e.roundsOf t = { armed, due } :: rest ∧
          (e.turnLoop t).roundsOf t = { armed, due, ticks := [e.now] } :: rest) ∧
      (∀ base seen, task.loop = .listening base seen → task.completions ≠ seen →
        ∃ round rest latest, e.roundsOf t = round :: rest ∧ round.ends.head? = some latest ∧
          ∀ due, latest.after? every.interval = some due →
            ∃ ticks, (e.turnLoop t).roundsOf t = { armed := e.now, due, ticks } :: e.roundsOf t)) := by
  intro e rounds
  let patient := Relation.ReflTransGen Patient (create config subscribers hook handler) w
  have reckoned : Reckoned patient t e := by
    by_cases keeps : patient
    · obtain ⟨moves, admitted, is, prompt⟩ := prompt_reached t keeps
      rw [show e = _ from is.symm]
      exact (reckoned_create patient config subscribers t).after admitted fun _ => prompt
    · obtain ⟨moves, admitted, is⟩ := engine_has_history reached
      rw [show e = _ from is.symm]
      exact (reckoned_create patient config subscribers t).after admitted fun p => absurd p keeps
  have stands := reckoned.count task every known periodic delay
  have welcomes := reckoned.orderly.welcomes t
  refine ⟨?_, ?_, ?_, fun going => ⟨?_, ?_, ?_⟩⟩
  · intro first oldest
    rw [List.head?_reverse] at oldest
    exact stands.starts oldest
  · exact fun round mem => stands.ordered round (List.mem_reverse.mp mem)
  · intro n round next here after
    obtain ⟨tick, first, latest, anchors, atOnce⟩ := stands.anchors here after
    refine ⟨tick, first, latest, anchors, fun p => ?_⟩
    obtain ⟨armed, same⟩ := atOnce p
    exact ⟨armed, same ▸ anchors.due⟩
  · exact fun fresh due is => stands.begins welcomes going known periodic delay fresh is
  · exact fun base due sleeps isDue => stands.ticks welcomes going known periodic delay sleeps isDue
  · exact fun base seen listens heard =>
      stands.goesOn welcomes going known periodic delay listens heard

end Reached

/-- A task that is due two nanoseconds after a run of it has ended, at once first; its runs take five. -/
def napping : Spec :=
  { work := .plays [[.sleep ⟨5⟩]], name := "nap", overlap := .merge
    schedule := .every { interval := ⟨2⟩, tick := .fixedDelay, startImmediately := true } }

/-- While it runs somebody else asks for another run, which is owed and begins when the first one ends. -/
def nappingWorld : World :=
  (create {} [] none .logging).after
    [.add napping, .start (.named "t"), .turn (.schedule 0), .request 0, .turn (.run ⟨0, 1⟩),
      .clock ⟨5⟩, .turn (.run ⟨0, 1⟩), .turn (.schedule 0)]

theorem patient_nappingWorld :
    Relation.ReflTransGen Patient (create {} [] none .logging) nappingWorld := by
  have act {w : World} (h : Relation.ReflTransGen Patient (create {} [] none .logging) w) (a : Act)
      (plain : a.isRedraw = false) (allowed : w.allows a = true)
      (still : (w.perform a).now = w.now) :
      Relation.ReflTransGen Patient (create {} [] none .logging) (w.perform a) :=
    h.tail (.atOnce (step_iff.mpr ⟨a, plain, allowed, rfl⟩) still)
  have asked := act (act (act (act .refl (.add napping) rfl rfl rfl) (.start (.named "t")) rfl rfl rfl)
    (.turn (.schedule 0)) rfl (by decide) (by decide)) (.request 0) rfl rfl (by decide)
  have asleep := (act asked (.turn (.run ⟨0, 1⟩)) rfl (by decide) (by decide)).tail
    (.clock _ ⟨5⟩ (by decide) (by decide))
  exact act (act asleep (.turn (.run ⟨0, 1⟩)) rfl (by decide) (by decide)) (.turn (.schedule 0)) rfl
    (by decide) (by decide)

/-- The second timer is armed for two nanoseconds after the end. -/
theorem fixed_delay_counts_from_the_end_napping :
    ∃ round next first, (nappingWorld.engine.roundsOf 0).reverse = [round, next] ∧
      round.ticks = [⟨0⟩] ∧ round.ends = [⟨5⟩] ∧ next.armed = first ∧ next.due.ns = first.ns + 2 := by
  have reached : Relation.ReflTransGen Step (create {} [] none .logging) nappingWorld :=
    steps_of_patient patient_nappingWorld
  obtain ⟨task, known, periodic⟩ : ∃ task, nappingWorld.engine.tasks[0]? = some task ∧
      task.spec.schedule = .every { interval := ⟨2⟩, tick := .fixedDelay, startImmediately := true } :=
    ⟨_, rfl, rfl⟩
  obtain ⟨-, -, anchored, -⟩ :=
    fixed_delay_counts_from_the_end reached 0 task _ known periodic rfl
  obtain ⟨tick, first, latest, anchors, atOnce⟩ := anchored 0 _ _ rfl rfl
  obtain ⟨armed, due⟩ := atOnce patient_nappingWorld
  exact ⟨_, _, first, rfl, rfl, rfl, armed, due⟩

/-- The owed run ends before the schedule takes its turn. -/
def oversleeping : List Act :=
  [.add napping, .start (.named "t"), .turn (.schedule 0), .request 0, .turn (.run ⟨0, 1⟩),
    .clock ⟨5⟩, .turn (.run ⟨0, 1⟩), .turn (.run ⟨0, 2⟩), .clock ⟨10⟩, .turn (.run ⟨0, 2⟩),
    .turn (.schedule 0)]

/-- The schedule hears of two ends at once and counts from the second of them: not every timer is
armed for one interval after the first end. -/
theorem late_schedule_counts_from_latest_end :
    ¬∀ (config : Config) (subscribers : List Subscriber) (hook : Option Hook) (handler : Handler)
      (w : World), Relation.ReflTransGen Step (create config subscribers hook handler) w →
      ∀ (t : TaskId) (task : TaskRecord) (every : Every), w.engine.tasks[t]? = some task →
      task.spec.schedule = .every every → every.tick = .fixedDelay →
      ∀ (n : Nat) (round next : Round), (w.engine.roundsOf t).reverse[n]? = some round →
        (w.engine.roundsOf t).reverse[n + 1]? = some next →
        ∃ first, round.ends.getLast? = some first ∧ next.due.ns = first.ns + every.interval.ns := by
  intro counts
  have reached : Relation.ReflTransGen Step (create {} [] none .logging)
      ((create {} [] none .logging).after oversleeping) := steps_after (by decide) (by decide)
  obtain ⟨task, known, periodic⟩ : ∃ task,
      ((create {} [] none .logging).after oversleeping).engine.tasks[0]? = some task ∧
      task.spec.schedule = .every { interval := ⟨2⟩, tick := .fixedDelay, startImmediately := true } :=
    ⟨_, rfl, rfl⟩
  obtain ⟨first, isFirst, due⟩ := counts _ _ _ _ _ reached 0 task _ known periodic rfl 0
    { armed := ⟨0⟩, due := ⟨0⟩, ticks := [⟨0⟩], ends := [⟨10⟩, ⟨5⟩] } { armed := ⟨10⟩, due := ⟨12⟩ }
    rfl rfl
  cases isFirst
  cases due

end World

end TaskEngine
