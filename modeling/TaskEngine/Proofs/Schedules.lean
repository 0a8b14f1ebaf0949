/-
  TaskEngine/Proofs/Schedules.lean
  ================================
  **A periodic task has one schedule, which announces, ticks and asks in turn.**

  Schedules are set up in two places, when the engine is started and when a task is registered, and
  end in two ways.  Their loops go one way all the same (`Loop.Onward`), so a task is given one at
  most, and that it is given one is decided by the first state in which the engine is running and the
  task registered (`setUps_eq`).

  What a schedule does is read off its beats by a small automaton (`stage?`), which knows when a timer
  may be armed, when a tick may be due and how the request that follows has to be answered.  Requests
  of others are answered in between without an effect on it.
-/
import TaskEngine.Proofs.Beats

namespace TaskEngine

/-! ## 1. Reading beats -/

/-- How far a schedule has come in its round. -/
inductive Stage where
  /-- No timer is armed. -/
  | resting
  | armed (due : Instant)
  /-- The tick was announced. -/
  | sleeping (due : Instant)
  /-- The timer fired at this instant, and the request that follows has not been answered. -/
  | asking (tick : Instant)
deriving DecidableEq, Repr

/-- The stage after one more beat, if that was its turn: every timer that is armed is announced; it
fires once and not before it is due; a request is made at once, and is answered as it should be.
While a schedule rests or sleeps, requests of others are answered. -/
def Stage.next? : Stage → Instant × Beat → Option Stage
  | .resting, (_, .armed due) => some (.armed due)
  | .armed due, (_, .announced) => some (.sleeping due)
  | .sleeping due, (now, .ticked) => if due.isDue now then some (.asking now) else none
  | .asking tick, (now, .answered result) =>
      if Engine.isServed result && now == tick then some .resting else none
  | .resting, (_, .answered _) => some .resting
  | .sleeping due, (_, .answered _) => some (.sleeping due)
  | _, _ => none

/-- The stage that beats lead to, the newest beat first, if each of them came in turn. -/
def stage? (beats : List (Instant × Beat)) : Option Stage :=
  beats.foldr (fun beat stage => stage.bind (·.next? beat)) (some .resting)

/-- The newest timer that was armed, after the moment at which it was. -/
def armed? (beats : List (Instant × Beat)) : Option (Instant × Instant) :=
  beats.findSome? fun
    | (now, .armed due) => some (now, due)
    | _ => none

/-- How often a timer has fired, so how often the schedule has made a request. -/
def tickCount (beats : List (Instant × Beat)) : Nat := beats.countP (·.2 = .ticked)

def Stage.isCalm : Stage → Bool
  | .resting | .sleeping _ => true
  | .armed _ | .asking _ => false

section Answers

variable {answers beats : List (Instant × Beat)} {stage : Stage}

@[simp] theorem stage?_cons (beat : Instant × Beat) (beats : List (Instant × Beat)) :
    stage? (beat :: beats) = (stage? beats).bind (·.next? beat) := rfl

/-- Requests of others leave a schedule that rests or sleeps as it is. -/
theorem stage?_answers (calm : stage.isCalm = true) (told : stage? beats = some stage)
    (quiet : ∀ b ∈ answers, b.2.isAnswer = true) : stage? (answers ++ beats) = some stage := by
  induction answers with
  | nil => exact told
  | cons b answers ih =>
      obtain ⟨answer, rest⟩ := List.forall_mem_cons.mp quiet
      rw [List.cons_append, stage?_cons, ih rest, Option.bind_some]
      obtain ⟨now, beat⟩ := b
      cases beat with
      | answered result => cases stage <;> first | rfl | cases calm
      | _ => cases answer

theorem stage?_of_quiet (quiet : ∀ b ∈ beats, b.2.isAnswer = true) :
    stage? beats = some .resting := by
  have nothing : stage? [] = some .resting := rfl
  have read := stage?_answers rfl nothing quiet
  rwa [List.append_nil] at read

theorem armed?_answers (quiet : ∀ b ∈ answers, b.2.isAnswer = true) :
    armed? (answers ++ beats) = armed? beats := by
  have none : armed? answers = none := by
    refine List.findSome?_eq_none_iff.mpr fun b mem => ?_
    obtain ⟨now, beat⟩ := b
    cases beat with
    | answered result => rfl
    | _ => cases quiet _ mem
  rw [armed?, List.findSome?_append]
  exact (congrArg (Option.or · _) none).trans (Option.none_or)

theorem tickCount_answers (quiet : ∀ b ∈ answers, b.2.isAnswer = true) :
    tickCount (answers ++ beats) = tickCount beats := by
  have none : answers.countP (·.2 = .ticked) = 0 := by
    refine List.countP_eq_zero.mpr fun b mem ticked => ?_
    have answer := quiet b mem
    rw [of_decide_eq_true ticked] at answer
    cases answer
  rw [tickCount, List.countP_append, none, Nat.zero_add, tickCount]

end Answers

/-! ### What a loop has told -/

/-- Where a loop stands is where its beats have led it. -/
def Loop.Tells (beats : List (Instant × Beat)) : Loop → Prop
  | .absent | .fresh => ∀ b ∈ beats, b.2.isAnswer = true
  | .sleeping _ due => stage? beats = some (.sleeping due)
  | .listening .. => stage? beats = some .resting
  | .ended => ∃ stage, stage? beats = some stage ∧ stage.isCalm = true

namespace Loop

variable {l l' : Loop} {replies beats : List (Instant × Beat)}

theorem Tells.calm (h : l.Tells beats) : ∃ stage, stage? beats = some stage ∧ stage.isCalm = true := by
  cases l with
  | absent => exact ⟨_, stage?_of_quiet h, rfl⟩
  | fresh => exact ⟨_, stage?_of_quiet h, rfl⟩
  | sleeping base due => exact ⟨_, h, rfl⟩
  | listening base seen => exact ⟨_, h, rfl⟩
  | ended => exact h

theorem Tells.answers (h : l.Tells beats) (quiet : ∀ b ∈ replies, b.2.isAnswer = true) :
    l.Tells (replies ++ beats) := by
  cases l with
  | absent => exact List.forall_mem_append.mpr ⟨quiet, h⟩
  | fresh => exact List.forall_mem_append.mpr ⟨quiet, h⟩
  | sleeping base due => exact stage?_answers rfl h quiet
  | listening base seen => exact stage?_answers rfl h quiet
  | ended =>
      obtain ⟨stage, told, calm⟩ := h
      exact ⟨stage, stage?_answers calm told quiet, calm⟩

/-- A loop is set up where there was none, and once it has begun it does not go back. -/
inductive Onward : Loop → Loop → Prop where
  | same (l : Loop) : Onward l l
  | setUp : Onward .absent .fresh
  | goesOn {l l' : Loop} (alive : l.isAlive = true) (begun : l' ≠ .absent ∧ l' ≠ .fresh) : Onward l l'

theorem Onward.present (h : l.Onward l') (present : l ≠ .absent) : l' ≠ .absent := by
  cases h with
  | same => exact present
  | setUp => exact nofun
  | goesOn alive begun => exact begun.1

theorem Onward.ended (h : l.Onward l') (ended : l = .ended) : l' = .ended := by
  subst ended
  cases h with
  | same => rfl
  | goesOn alive begun => cases alive

end Loop

theorem Instant.after?_isSome_of_le {first later : Instant} {d : Duration} (onward : first.ns ≤ later.ns)
    (shown : (later.after? d).isSome = true) : (first.after? d).isSome = true := by
  obtain ⟨instant, is⟩ := Option.isSome_iff_exists.mp shown
  have fits := (Instant.after?_eq_some.mp is).1
  have fits' : first.ns + d.ns < limit := Nat.lt_of_le_of_lt (Nat.add_le_add_right onward _) fits
  exact Option.isSome_iff_exists.mpr ⟨⟨first.ns + d.ns⟩, Instant.after?_eq_some.mpr ⟨fits', rfl⟩⟩

theorem TaskStatus.isClosing_iff (s : TaskStatus) : s.isClosing = true ↔ 2 ≤ s.rank := by
  cases s <;> decide

namespace TaskRecord

/-- The moment of the next run is known while a schedule goes on, and forgotten when it has ended,
unless it ran into the end of the clock. -/
structure Books (task : TaskRecord) (now : Instant) (beats : List (Instant × Beat)) : Prop where
  timely : task.completedAt.ns ≤ now.ns
  planned : task.loop.isAlive = true → task.loop ≠ .fresh →
    ∃ moment due, armed? beats = some (moment, due) ∧ task.nextRun = moment.after? (due.since moment)
  tidy : task.loop = .ended →
    (∀ every, task.spec.schedule = .every every → (now.after? every.interval).isSome = true) →
      task.nextRun = none ∧ task.status.isClosing = true

theorem loop_activate (task : TaskRecord) : task.activate.loop = task.loop := by
  unfold activate
  split <;> rfl

theorem spec_ensureLoop (task : TaskRecord) : task.ensureLoop.spec = task.spec := by
  unfold ensureLoop
  split <;> rfl

theorem loop_ensureLoop {task : TaskRecord} (absent : task.loop = .absent) :
    task.ensureLoop.loop =
      if task.ensureLoop.spec.schedule.isPeriodic = true then .fresh else .absent := by
  rw [spec_ensureLoop, ensureLoop, absent]
  cases task.spec.schedule.isPeriodic <;> simp [absent]

theorem completedAt_setUp (task : TaskRecord) :
    task.activate.ensureLoop.completedAt = task.completedAt := by
  unfold ensureLoop activate
  split <;> split <;> rfl

end TaskRecord

namespace Engine

variable {e e' : Engine} {t : TaskId}

/-! ## 2. What a schedule keeps -/

/-- What the record of a task says about its schedule, and what holds before there is one. -/
structure Regular (t : TaskId) (e : Engine) : Prop where
  young : e.phase = .notStarted → e.loopOf t = .absent
  tells : (e.loopOf t).Tells (e.beats t)
  books : ∀ task, e.tasks[t]? = some task → task.Books e.now (e.beats t)
  periodic : ∀ task, e.tasks[t]? = some task → task.loop ≠ .absent →
    task.spec.schedule.isPeriodic = true
  manned : e.phase = .running → ∀ task, e.tasks[t]? = some task →
    task.spec.schedule.isPeriodic = true → task.loop ≠ .absent

theorem regular_create (config : Config) (subscribers : List Subscriber) (t : TaskId) :
    Regular t (create config subscribers) where
  young _ := rfl
  tells _ mem := absurd mem List.not_mem_nil
  books _ known := nomatch known
  periodic _ known := nomatch known
  manned running := nomatch running

/-! ### Left alone -/

theorem Spares.old {new : TaskRecord} (spares : Spares t e e') (known : e'.tasks[t]? = some new) :
    ∃ old, e.tasks[t]? = some old ∧ old.SameLoop e'.now new := by
  rcases was : e.tasks[t]? with _ | old
  · cases (spares.unknown was).symm.trans known
  · obtain ⟨found, known', same⟩ := spares.known old was
    obtain rfl : found = new := Option.some.inj (known'.symm.trans known)
    exact ⟨old, rfl, same⟩

theorem Regular.spares (h : Regular t e) (spares : Spares t e e') (heeds : Heeds e e') :
    Regular t e' := by
  obtain ⟨answers, beats, quiet⟩ := spares.beats
  have same_phase (open' : e'.isClosing = false) : e'.phase = e.phase := by
    rcases spares.phase with same | closing
    · exact same
    · rw [open'] at closing
      cases closing
  refine ⟨?_, ?_, ?_, ?_, ?_⟩
  · intro fresh
    rw [spares.loopOf]
    exact h.young (same_phase (by rw [isClosing, fresh]; rfl) ▸ fresh)
  · rw [spares.loopOf, beats]
    exact h.tells.answers quiet
  · intro new known
    obtain ⟨old, was, same⟩ := spares.old known
    have books := h.books old was
    refine ⟨?_, ?_, ?_⟩
    · rcases same.completedAt with kept | ended
      · rw [kept]
        exact Nat.le_trans books.timely spares.time
      · exact ended
    · intro alive begun
      rw [same.loop] at alive begun
      obtain ⟨moment, due, armed, next⟩ := books.planned alive begun
      rcases same.nextRun with kept | ⟨dead, -⟩
      · exact ⟨moment, due, by rw [beats, armed?_answers quiet, armed], kept.trans next⟩
      · rw [alive] at dead
        cases dead
    · intro ended shown
      have earlier (every : Every) (periodic : old.spec.schedule = .every every) :
          (e.now.after? every.interval).isSome = true :=
        Instant.after?_isSome_of_le spares.time (shown every (same.spec ▸ periodic))
      obtain ⟨cleared, closing⟩ := books.tidy (same.loop ▸ ended) earlier
      constructor
      · rcases same.nextRun with kept | ⟨-, cleared'⟩
        · exact kept.trans cleared
        · exact cleared'
      · obtain ⟨found, known', onward⟩ := heeds.onward t old was
        obtain rfl : found = new := Option.some.inj (known'.symm.trans known)
        rw [TaskStatus.isClosing_iff] at closing ⊢
        exact Nat.le_trans closing onward
  · intro new known present
    obtain ⟨old, was, same⟩ := spares.old known
    rw [same.spec]
    exact h.periodic old was (same.loop ▸ present)
  · intro running new known periodic
    obtain ⟨old, was, same⟩ := spares.old known
    rw [same.loop]
    have before : e.phase = .running :=
      (same_phase (by rw [isClosing, running]; rfl)).symm.trans running
    exact h.manned before old was (same.spec ▸ periodic)

/-! ### Set up -/

theorem SetsUp.absent (sets : SetsUp t e e') (young : e.phase = .notStarted → e.loopOf t = .absent) :
    e.loopOf t = .absent := by
  cases sets with
  | starts silent now fresh running tasks => exact young fresh
  | registers spec status silent now accepted phase here tasks =>
      exact loopOf_of_unknown (List.getElem?_eq_none (Nat.le_of_eq here.symm))

theorem SetsUp.now (sets : SetsUp t e e') : e'.now = e.now := by
  cases sets <;> assumption

theorem SetsUp.beats (sets : SetsUp t e e') : e'.beats t = e.beats t := by
  cases sets <;> assumption

/-- A new record has a schedule if its task is periodic and the engine is running. -/
theorem loop_newRecord (e : Engine) (spec : ResolvedSpec) (status : TaskStatus) :
    (e.newRecord spec status).loop =
      if (e.newRecord spec status).spec.schedule.isPeriodic = true ∧ e.phase = .running then .fresh
      else .absent := by
  cases phase : e.phase with
  | running =>
      simp only [newRecord, phase]
      rw [TaskRecord.loop_ensureLoop rfl]
      simp
  | _ => simp [newRecord, phase]

theorem completedAt_newRecord (e : Engine) (spec : ResolvedSpec) (status : TaskStatus) :
    (e.newRecord spec status).completedAt = .zero := by
  cases phase : e.phase with
  | running =>
      simp only [newRecord, phase]
      unfold TaskRecord.ensureLoop
      split <;> rfl
  | _ => simp [newRecord, phase]

/-- A task that is known when the engine comes to run, or becomes known to a running engine, has its
schedule set up if it is periodic. -/
theorem SetsUp.known {new : TaskRecord} (sets : SetsUp t e e')
    (young : e.phase = .notStarted → e.loopOf t = .absent) (known : e'.tasks[t]? = some new) :
    new.loop = (if new.spec.schedule.isPeriodic = true ∧ e'.phase = .running then .fresh
      else .absent) ∧
    (new.completedAt = .zero ∨ ∃ old, e.tasks[t]? = some old ∧ new.completedAt = old.completedAt) := by
  have absent := sets.absent young
  cases sets with
  | starts silent now fresh running tasks =>
      rw [tasks, List.getElem?_map, Option.map_eq_some_iff] at known
      obtain ⟨old, known, rfl⟩ := known
      have none : old.activate.loop = .absent :=
        old.loop_activate.trans ((loopOf_of_known known).symm.trans absent)
      rw [TaskRecord.loop_ensureLoop none, running]
      exact ⟨by simp, .inr ⟨old, known, old.completedAt_setUp⟩⟩
  | registers spec status silent now accepted phase here tasks =>
      rw [tasks, here, List.getElem?_concat_length, Option.some.injEq] at known
      subst known
      rw [phase]
      exact ⟨loop_newRecord .., .inl (completedAt_newRecord ..)⟩

theorem SetsUp.loopOf (sets : SetsUp t e e')
    (young : e.phase = .notStarted → e.loopOf t = .absent) :
    e'.loopOf t = .absent ∨ e'.loopOf t = .fresh := by
  rcases known : e'.tasks[t]? with _ | new
  · exact .inl (loopOf_of_unknown known)
  · rw [loopOf_of_known known, (sets.known young known).1]
    split
    · exact .inr rfl
    · exact .inl rfl

theorem Regular.setsUp (h : Regular t e) (sets : SetsUp t e e') : Regular t e' := by
  have quiet : ∀ b ∈ e.beats t, b.2.isAnswer = true := by
    have told := h.tells
    rwa [sets.absent h.young] at told
  refine ⟨?_, ?_, ?_, ?_, ?_⟩
  · intro fresh
    rcases known : e'.tasks[t]? with _ | new
    · exact loopOf_of_unknown known
    · rw [loopOf_of_known known, (sets.known h.young known).1, if_neg]
      rintro ⟨-, running⟩
      rw [fresh] at running
      cases running
  · rw [sets.beats]
    rcases sets.loopOf h.young with absent | fresh
    · rw [absent]
      exact quiet
    · rw [fresh]
      exact quiet
  · intro new known
    have resting := sets.loopOf h.young
    rw [loopOf_of_known known] at resting
    refine ⟨?_, ?_, ?_⟩
    · rw [sets.now]
      rcases (sets.known h.young known).2 with zero | ⟨old, was, same⟩
      · rw [zero]
        exact Nat.zero_le _
      · rw [same]
        exact (h.books old was).timely
    · intro alive begun
      rcases resting with absent | fresh
      · rw [absent] at alive
        cases alive
      · exact absurd fresh begun
    · intro ended
      rw [ended] at resting
      rcases resting with absent | fresh
      · cases absent
      · cases fresh
  · intro new known present
    rw [(sets.known h.young known).1] at present
    by_contra other
    rw [if_neg fun both => other both.1] at present
    exact present rfl
  · intro running new known periodic
    rw [(sets.known h.young known).1, if_pos ⟨periodic, running⟩]
    exact nofun

/-! ### Taking a step -/

/-- A step is taken by a schedule that is alive, and it has begun afterwards. -/
theorem LoopStep.known (step : LoopStep t e e') :
    ∃ old new, e.tasks[t]? = some old ∧ e'.tasks[t]? = some new ∧ new.spec = old.spec ∧
      old.loop.isAlive = true ∧ (new.loop ≠ .absent ∧ new.loop ≠ .fresh) := by
  have arms {e : Engine} {old : TaskRecord} (was : e.tasks[t]? = some old) (named : TaskRecord)
      (base : Instant) (due? : Option Instant) :
      ∃ new, (e.armLoop t named base due?).tasks[t]? = some new ∧ new.spec = old.spec ∧
        (new.loop ≠ .absent ∧ new.loop ≠ .fresh) := by
    refine ⟨_, known_armLoop was named base due?, ?_⟩
    cases due? <;> exact ⟨rfl, nofun, nofun⟩
  cases step with
  | begins task every was periodic fresh =>
      obtain ⟨new, known, spec, begun⟩ := arms was task e.now (e.firstTick? every)
      exact ⟨task, new, was, known, spec, by rw [fresh]; rfl, begun⟩
  | goesOn task every base seen was periodic listens heard =>
      obtain ⟨new, known, spec, begun⟩ := arms was task base (task.completedAt.after? every.interval)
      exact ⟨task, new, was, known, spec, by rw [listens]; rfl, begun⟩
  | ticks task every base due was periodic sleeps isDue admits willing =>
      obtain ⟨asked, found, same⟩ := known_afterTick was
      have alive : task.loop.isAlive = true := by rw [sleeps]; rfl
      rcases tick : every.tick with _ | _
      · rw [tick_fixedDelay tick was admits willing]
        refine ⟨task, _, was, known_updateTask found _, same.spec, alive, nofun, nofun⟩
      · rw [tick_fixedRate tick]
        obtain ⟨new, known, spec, begun⟩ := arms found task base (nextAligned? base every.interval e.now)
        exact ⟨task, new, was, known, spec.trans same.spec, alive, begun⟩
  | ends task was waits cancelled =>
      have marked := TaskRecord.sameLoop_markStopping e.now { task with nextRun := none, loop := .ended }
      refine ⟨task, _, was, known_endLoop was, marked.spec, waits.1, ?_⟩
      rw [marked.loop]
      exact ⟨nofun, nofun⟩

theorem LoopStep.now (step : LoopStep t e e') : e'.now = e.now := by
  cases step with
  | begins task every was periodic fresh => exact now_armLoop ..
  | goesOn task every base seen was periodic listens heard => exact now_armLoop ..
  | ticks task every base due was periodic sleeps isDue admits willing =>
      rcases tick : every.tick with _ | _
      · rw [tick_fixedDelay tick was admits willing]
        exact now_afterTick e t
      · rw [tick_fixedRate tick]
        exact (now_armLoop ..).trans (now_afterTick e t)
  | ends task was waits cancelled => rfl

theorem LoopStep.phase (step : LoopStep t e e') : e'.phase = e.phase := by
  have arms (e : Engine) (named : TaskRecord) (base : Instant) (due? : Option Instant) :
      (e.armLoop t named base due?).phase = e.phase := by
    cases due? <;> rfl
  cases step with
  | begins task every was periodic fresh => exact arms ..
  | goesOn task every base seen was periodic listens heard => exact arms ..
  | ticks task every base due was periodic sleeps isDue admits willing =>
      have asked : (e.afterTick t).phase = e.phase := phase_request ..
      rcases tick : every.tick with _ | _
      · rw [tick_fixedDelay tick was admits willing]
        exact asked
      · rw [tick_fixedRate tick]
        exact (arms ..).trans asked
  | ends task was waits cancelled => rfl

/-- A schedule that rests arms its timer and announces the tick, or breaks off. -/
theorem tells_armLoop {task : TaskRecord} (known : e.tasks[t]? = some task)
    (resting : stage? (e.beats t) = some .resting) (named : TaskRecord) (base : Instant)
    (due? : Option Instant) :
    ((e.armLoop t named base due?).loopOf t).Tells ((e.armLoop t named base due?).beats t) := by
  rw [loopOf_of_known (known_armLoop known named base due?)]
  cases due? with
  | none => exact ⟨.resting, resting, rfl⟩
  | some due =>
      rw [beats_armLoop_some]
      show stage? _ = some (.sleeping due)
      rw [stage?_cons, stage?_cons, resting]
      rfl

/-- A schedule whose timer is due asks for a run and is answered. -/
theorem resting_afterTick {task : TaskRecord} {due : Instant} (known : e.tasks[t]? = some task)
    (told : stage? (e.beats t) = some (.sleeping due)) (isDue : due.isDue e.now = true)
    (admits : e.refusal? = none) (willing : task.refusal? = none) :
    stage? ((e.afterTick t).beats t) = some .resting := by
  have served := isServed_request (e := e.note (.ticked t)) known admits willing none
  rw [beats_afterTick, stage?_cons, stage?_cons, told]
  simp [Stage.next?, isDue, served]

/-- The automaton follows every step. -/
theorem LoopStep.tells (step : LoopStep t e e') (tells : (e.loopOf t).Tells (e.beats t)) :
    (e'.loopOf t).Tells (e'.beats t) := by
  cases step with
  | begins task every was periodic fresh =>
      rw [loopOf_of_known was, fresh] at tells
      exact tells_armLoop was (stage?_of_quiet tells) ..
  | goesOn task every base seen was periodic listens heard =>
      rw [loopOf_of_known was, listens] at tells
      exact tells_armLoop was tells ..
  | ticks task every base due was periodic sleeps isDue admits willing =>
      rw [loopOf_of_known was, sleeps] at tells
      have resting := resting_afterTick was tells isDue admits willing
      obtain ⟨asked, found, -⟩ := known_afterTick was
      rcases tick : every.tick with _ | _
      · rw [tick_fixedDelay tick was admits willing, loopOf_of_known (known_updateTask found _)]
        exact resting
      · rw [tick_fixedRate tick]
        exact tells_armLoop found resting ..
  | ends task was waits cancelled =>
      rw [loopOf_endLoop was]
      exact tells.calm

/-- A schedule breaks off only if the clock has no next tick. -/
theorem books_armLoop {task : TaskRecord} {every : Every} {due? : Option Instant}
    (known : e.tasks[t]? = some task) (timely : task.completedAt.ns ≤ e.now.ns)
    (periodic : task.spec.schedule = .every every)
    (breaks : due? = none → e.now.after? every.interval = none) (named : TaskRecord)
    (base : Instant) : ∀ new, (e.armLoop t named base due?).tasks[t]? = some new →
      new.Books e.now ((e.armLoop t named base due?).beats t) := by
  intro new found
  obtain rfl : task.arm e.now base due? = new :=
    Option.some.inj ((known_armLoop known named base due?).symm.trans found)
  cases due? with
  | none =>
      refine ⟨timely, nofun, fun _ shown => ?_⟩
      have has := shown every periodic
      rw [breaks rfl] at has
      cases has
  | some due =>
      refine ⟨timely, fun _ _ => ⟨e.now, due, ?_, rfl⟩, nofun⟩
      rw [beats_armLoop_some]
      rfl

/-- The books are kept by every step. -/
theorem LoopStep.books (step : LoopStep t e e')
    (books : ∀ task, e.tasks[t]? = some task → task.Books e.now (e.beats t)) :
    ∀ new, e'.tasks[t]? = some new → new.Books e'.now (e'.beats t) := by
  rw [step.now]
  cases step with
  | begins task every was periodic fresh =>
      refine books_armLoop was (books task was).timely periodic (fun lost => ?_) _ _
      unfold firstTick? at lost
      split at lost
      · cases lost
      · exact lost
  | goesOn task every base seen was periodic listens heard =>
      have timely := (books task was).timely
      refine books_armLoop was timely periodic (fun lost => ?_) _ _
      cases shown : e.now.after? every.interval with
      | none => rfl
      | some instant =>
          have earlier := Instant.after?_isSome_of_le timely (Option.isSome_of_eq_some shown)
          rw [lost] at earlier
          cases earlier
  | ticks task every base due was periodic sleeps isDue admits willing =>
      obtain ⟨asked, found, same⟩ := known_afterTick was
      have timely : asked.completedAt.ns ≤ e.now.ns := by
        rcases same.completedAt with kept | ended
        · rw [kept]
          exact (books task was).timely
        · exact ended
      rcases tick : every.tick with _ | _
      · rw [tick_fixedDelay tick was admits willing]
        intro new known
        obtain rfl := Option.some.inj ((known_updateTask found _).symm.trans known)
        refine ⟨timely, fun _ _ => ?_, nofun⟩
        have alive : task.loop.isAlive = true := by rw [sleeps]; rfl
        obtain ⟨moment, due, armed, next⟩ := (books task was).planned alive (by rw [sleeps]; exact nofun)
        refine ⟨moment, due, ?_, ?_⟩
        · show armed? ((e.afterTick t).beats t) = _
          rw [beats_afterTick]
          exact armed
        · rcases same.nextRun with kept | ⟨dead, -⟩
          · exact kept.trans next
          · rw [alive] at dead
            cases dead
      · rw [tick_fixedRate tick]
        have now := now_afterTick e t
        have breaks (lost : nextAligned? base every.interval e.now = none) :
            (e.afterTick t).now.after? every.interval = none := by
          rw [now]
          exact Instant.after?_eq_none.mpr (nextAligned?_eq_none_iff.mp lost).2
        have kept := books_armLoop found (now ▸ timely) (same.spec ▸ periodic) breaks task base
        rwa [now] at kept
  | ends task was waits cancelled =>
      intro new known
      obtain rfl := Option.some.inj ((known_endLoop was).symm.trans known)
      unfold TaskRecord.markStopping
      split
      · rename_i stopped
        exact ⟨(books task was).timely, nofun, fun _ _ => ⟨rfl, by rw [stopped]; rfl⟩⟩
      · exact ⟨(books task was).timely, nofun, fun _ _ => ⟨rfl, rfl⟩⟩

theorem Regular.step (h : Regular t e) (step : LoopStep t e e') : Regular t e' := by
  obtain ⟨old, new, was, known, spec, alive, begun⟩ := step.known
  have present : old.loop ≠ .absent := by
    intro absent
    rw [absent] at alive
    cases alive
  have same {task : TaskRecord} (found : e'.tasks[t]? = some task) : task = new :=
    Option.some.inj (found.symm.trans known)
  refine ⟨?_, step.tells h.tells, step.books h.books, ?_, ?_⟩
  · intro fresh
    have absent := h.young (step.phase ▸ fresh)
    rw [loopOf_of_known was] at absent
    exact absurd absent present
  · intro task found _
    rw [same found, spec]
    exact h.periodic old was present
  · intro _ task found _
    rw [same found]
    exact begun.1

/-! ## 3. The way of a loop -/

/-- A turn of a schedule changes nothing, or its schedule was alive and has begun. -/
theorem LoopSteps.begun (steps : LoopSteps t e e') :
    e' = e ∨ (e.loopOf t).isAlive = true ∧ (e'.loopOf t ≠ .absent ∧ e'.loopOf t ≠ .fresh) := by
  induction steps using Relation.ReflTransGen.head_induction_on with
  | refl => exact .inl rfl
  | head first _ ih =>
      obtain ⟨old, new, was, known, -, alive, begun⟩ := first.known
      rw [← loopOf_of_known was] at alive
      rw [← loopOf_of_known known] at begun
      rcases ih with rfl | ⟨-, begun'⟩
      · exact .inr ⟨alive, begun⟩
      · exact .inr ⟨alive, begun'⟩

theorem Regular.onward {m : Move} (h : Regular t e) (orderly : e.Orderly)
    (allowed : e.allows m = true) : (e.loopOf t).Onward ((e.perform m).loopOf t) := by
  rcases unfolds_perform t orderly allowed with left | sets | steps
  · rw [left.loopOf]
    exact .same _
  · rw [sets.absent h.young]
    rcases sets.loopOf h.young with absent | fresh
    · rw [absent]
      exact .same _
    · rw [fresh]
      exact .setUp
  · rcases steps.begun with same | ⟨alive, begun⟩
    · rw [same]
      exact .same _
    · exact .goesOn alive begun

theorem Regular.after {moves : List Move} (h : Regular t e) (orderly : e.Orderly)
    (admitted : e.admits moves = true) : Regular t (e.after moves) :=
  schedule_invariant (P := Regular t) t (fun _ _ spares heeds h => h.spares spares heeds)
    (fun _ _ sets h => h.setsUp sets) (fun _ _ step h => h.step step) orderly admitted h

theorem Regular.perform {m : Move} (h : Regular t e) (orderly : e.Orderly)
    (allowed : e.allows m = true) : Regular t (e.perform m) := by
  have admitted : e.admits [m] = true := (admits_cons ..).mpr ⟨allowed, rfl⟩
  exact h.after orderly admitted

/-- What no loop leaves once it is there, a schedule does not leave. -/
theorem Regular.stays {P : Loop → Prop} (keeps : ∀ l l' : Loop, l.Onward l' → P l → P l')
    {moves : List Move} (h : Regular t e) (orderly : e.Orderly) (admitted : e.admits moves = true)
    (here : P (e.loopOf t)) : P ((e.after moves).loopOf t) := by
  induction moves generalizing e with
  | nil => exact here
  | cons m moves ih =>
      obtain ⟨allowed, rest⟩ := (admits_cons ..).mp admitted
      have next := h.perform orderly allowed
      exact ih next (orderly.perform allowed) rest (keeps _ _ (h.onward orderly allowed) here)

/-- How often the schedule of task `t` is set up in the course of a history. -/
def setUps (t : TaskId) : Engine → List Move → Nat
  | _, [] => 0
  | e, m :: moves =>
      (if e.loopOf t ≠ .fresh ∧ (e.perform m).loopOf t = .fresh then 1 else 0) +
        setUps t (e.perform m) moves

/-- A schedule is set up once, if there is one at the end that was not there at the beginning. -/
theorem setUps_eq {moves : List Move} (h : Regular t e) (orderly : e.Orderly)
    (admitted : e.admits moves = true) : setUps t e moves =
      if e.loopOf t = .absent ∧ (e.after moves).loopOf t ≠ .absent then 1 else 0 := by
  induction moves generalizing e with
  | nil => simp [setUps]
  | cons m moves ih =>
      obtain ⟨allowed, rest⟩ := (admits_cons ..).mp admitted
      have next := h.perform orderly allowed
      have orderly' := orderly.perform allowed
      have stays : (e.perform m).loopOf t ≠ .absent → ((e.perform m).after moves).loopOf t ≠ .absent :=
        next.stays (P := (· ≠ .absent)) (fun _ _ onward => onward.present) orderly' rest
      have onward := h.onward orderly allowed
      rw [setUps, ih next orderly' rest, after_cons]
      generalize e.loopOf t = l, (e.perform m).loopOf t = l' at onward stays ⊢
      cases onward with
      | same => simp
      | setUp => simp [stays]
      | goesOn alive begun =>
          have present : l ≠ .absent := by
            rintro rfl
            cases alive
          simp [begun, present]

/-- A schedule is there exactly if its task is periodic, and was registered in a state in which the
engine was running. -/
theorem present_iff {moves : List Move} (h : Regular t e) (orderly : e.Orderly)
    (absent : e.loopOf t = .absent) (admitted : e.admits moves = true) :
    (e.after moves).loopOf t ≠ .absent ↔
      ((e.after moves).tasks[t]?).any (·.spec.schedule.isPeriodic) = true ∧
      ∃ first, first <+: moves ∧ (e.after first).phase = .running ∧
        t < (e.after first).tasks.length := by
  have at_end := h.after orderly admitted
  constructor
  · intro present
    constructor
    · rcases known : (e.after moves).tasks[t]? with _ | task
      · exact absurd (loopOf_of_unknown known) present
      · rw [loopOf_of_known known] at present
        exact at_end.periodic task known present
    · -- the schedule is there because of one of the moves, which has set it up
      obtain ⟨before, m, rest, rfl, none, there⟩ :=
        origin_of_after (P := fun e => e.loopOf t ≠ .absent) (not_not_intro absent) present
      obtain ⟨admitted', rest'⟩ := (admits_append ..).mp admitted
      obtain ⟨allowed, -⟩ := (admits_cons ..).mp rest'
      have mid := h.after orderly admitted'
      have none := not_not.mp none
      refine ⟨before ++ [m], ⟨rest, by simp⟩, ?_⟩
      rw [after_append]
      show ((e.after before).perform m).phase = _ ∧ t < ((e.after before).perform m).tasks.length
      rcases unfolds_perform t (orderly.after admitted') allowed with left | sets | steps
      · exact absurd (left.loopOf.trans none) there
      · rcases known : ((e.after before).perform m).tasks[t]? with _ | new
        · exact absurd (loopOf_of_unknown known) there
        · rw [loopOf_of_known known, (sets.known mid.young known).1] at there
          refine ⟨?_, (List.getElem?_eq_some_iff.mp known).1⟩
          by_contra other
          rw [if_neg fun both => other both.2] at there
          exact there rfl
      · rcases steps.begun with same | ⟨alive, -⟩
        · rw [same] at there
          exact absurd none there
        · rw [none] at alive
          cases alive
  · rintro ⟨periodic, first, ⟨rest, rfl⟩, running, inside⟩
    obtain ⟨admitted', rest'⟩ := (admits_append ..).mp admitted
    obtain ⟨old, known⟩ : ∃ old, (e.after first).tasks[t]? = some old :=
      ⟨_, List.getElem?_eq_getElem inside⟩
    rw [after_append] at periodic ⊢
    obtain ⟨new, known', later⟩ := grows_after rest' t old known
    rw [known', Option.any_some, later.spec] at periodic
    have mid := h.after orderly admitted'
    have present := mid.manned running old known periodic
    rw [← loopOf_of_known known] at present
    exact mid.stays (P := (· ≠ .absent)) (fun _ _ onward => onward.present)
      (orderly.after admitted') rest' present

/-! ## 4. Behind a shut gate -/

theorem isShut_armLoop (e : Engine) (named : TaskRecord) (base : Instant) (due? : Option Instant) :
    (e.armLoop t named base due?).isShut = e.isShut := by
  cases due? <;> rfl

theorem tickCount_armLoop (e : Engine) (named : TaskRecord) (base : Instant) (due? : Option Instant) :
    tickCount ((e.armLoop t named base due?).beats t) = tickCount (e.beats t) := by
  cases due? with
  | none => rfl
  | some due =>
      rw [beats_armLoop_some]
      simp [tickCount]

/-- A schedule makes no request behind a gate that is shut. -/
theorem LoopStep.tickCount_of_isShut (step : LoopStep t e e') (shut : e.isShut = true) :
    e'.isShut = true ∧ tickCount (e'.beats t) = tickCount (e.beats t) := by
  cases step with
  | begins task every was periodic fresh =>
      exact ⟨(isShut_armLoop ..).trans shut, tickCount_armLoop ..⟩
  | goesOn task every base seen was periodic listens heard =>
      exact ⟨(isShut_armLoop ..).trans shut, tickCount_armLoop ..⟩
  | ticks task every base due was periodic sleeps isDue admits willing =>
      rw [(isShut_iff e).mp shut] at admits
      cases admits
  | ends task was waits cancelled => exact ⟨shut, rfl⟩

theorem tickCount_perform {m : Move} (orderly : e.Orderly) (allowed : e.allows m = true)
    (shut : e.isShut = true) : tickCount ((e.perform m).beats t) = tickCount (e.beats t) := by
  rcases unfolds_perform t orderly allowed with left | sets | steps
  · obtain ⟨answers, beats, quiet⟩ := left.beats
    rw [beats, tickCount_answers quiet]
  · rw [sets.beats]
  · have both : (e.perform m).isShut = true ∧ tickCount ((e.perform m).beats t) = tickCount (e.beats t) := by
      generalize e.perform m = e' at steps ⊢
      induction steps with
      | refl => exact ⟨shut, rfl⟩
      | tail _ step ih =>
          obtain ⟨shut', same⟩ := step.tickCount_of_isShut ih.1
          exact ⟨shut', same.trans ih.2⟩
    exact both.2

theorem tickCount_after {moves : List Move} (orderly : e.Orderly) (admitted : e.admits moves = true)
    (shut : e.isShut = true) : tickCount ((e.after moves).beats t) = tickCount (e.beats t) := by
  induction moves generalizing e with
  | nil => rfl
  | cons m moves ih =>
      obtain ⟨allowed, rest⟩ := (admits_cons ..).mp admitted
      have first : e.admits [m] = true := (admits_cons ..).mpr ⟨allowed, rfl⟩
      rw [after_cons, ih (orderly.perform allowed) rest (sealed_after first shut).shut]
      exact tickCount_perform orderly allowed shut

/-! ## 5. All histories -/

/-- **One schedule for each periodic task.**  Whatever happens to an engine, and in whatever order:

A task has its schedule set up once if it is periodic and was registered in some state in which the
engine was running, be it that it was when the engine came to run or became so later; otherwise, and
if the task runs on demand only, never.  A schedule that has ended stays so.

A schedule announces each timer that it arms, ticks once and not before it is due, and makes one
request at that instant, which starts a run, is folded or is turned away at capacity, and does nothing
else (`stage?`); a task without a schedule does nothing of that.  Behind a gate that is shut no
request is made.

From the first turn of a schedule to its end the moment of the next run is the one for which the
timer was armed; from then on there is none, and the task is stopping or has stopped.  Only a
schedule whose next tick the clock cannot show is broken off without that. -/
theorem one_schedule_per_periodic_task (config : Config) (subscribers : List Subscriber)
    (before later : List Move)
    (admitted : (create config subscribers).admits (before ++ later) = true) (t : TaskId) :
    let e := (create config subscribers).after before
    let e' := (create config subscribers).after (before ++ later)
    setUps t (create config subscribers) (before ++ later) =
      (if e'.loopOf t = .absent then 0 else 1) ∧
    (e'.loopOf t ≠ .absent ↔ (e'.tasks[t]?).any (·.spec.schedule.isPeriodic) = true ∧
      ∃ first, first <+: before ++ later ∧
        ((create config subscribers).after first).phase = .running ∧
        t < ((create config subscribers).after first).tasks.length) ∧
    (e.loopOf t = .ended → e'.loopOf t = .ended) ∧
    (∃ stage, stage? (e'.beats t) = some stage ∧ stage.isCalm = true) ∧
    (e'.loopOf t = .absent → ∀ b ∈ e'.beats t, b.2.isAnswer = true) ∧
    (e.isShut = true → tickCount (e'.beats t) = tickCount (e.beats t)) ∧
    (∀ task, e'.tasks[t]? = some task →
      (task.loop.isAlive = true → task.loop ≠ .fresh → ∃ moment due,
        armed? (e'.beats t) = some (moment, due) ∧
        task.nextRun = moment.after? (due.since moment)) ∧
      (task.loop = .ended → (∀ every, task.spec.schedule = .every every →
          (e'.now.after? every.interval).isSome = true) →
        task.nextRun = none ∧ task.status.isClosing = true)) := by
  intro e e'
  have is : e' = e.after later := after_append ..
  obtain ⟨first, rest⟩ := (admits_append ..).mp admitted
  have new := regular_create config subscribers t
  have orderly := orderly_create config subscribers
  have mid : Regular t e := new.after orderly first
  have at_end : Regular t e' := new.after orderly admitted
  have midway : e.Orderly := orderly.after first
  refine ⟨?_, present_iff new orderly rfl admitted, ?_, at_end.tells.calm, ?_, ?_, ?_⟩
  · rw [setUps_eq new orderly admitted]
    show (if Loop.absent = Loop.absent ∧ e'.loopOf t ≠ .absent then 1 else 0) = _
    by_cases absent : e'.loopOf t = .absent
    · rw [if_neg fun both => both.2 absent, if_pos absent]
    · rw [if_pos ⟨rfl, absent⟩, if_neg absent]
  · rw [is]
    exact mid.stays (P := (· = .ended)) (fun _ _ onward => onward.ended) midway rest
  · intro absent
    have told := at_end.tells
    rwa [absent] at told
  · rw [is]
    exact tickCount_after midway rest
  · intro task known
    have books := at_end.books task known
    exact ⟨books.planned, books.tidy⟩

/-- A task that is due every two nanoseconds, up to the moment at which its run token is cancelled. -/
def tickingHistory : List Move :=
  [.add (.every .trivial ⟨2⟩), .start (.named "t"), .schedule 0, .clock ⟨3⟩, .schedule 0,
    .cancel (.named "t")]

/-- The schedule has made its request, and ends. -/
theorem one_schedule_per_periodic_task_cancelled :
    (create {} []).admits (tickingHistory ++ [.schedule 0]) = true ∧
    setUps 0 (create {} []) (tickingHistory ++ [.schedule 0]) = 1 ∧
    tickCount (((create {} []).after (tickingHistory ++ [.schedule 0])).beats 0) = 1 := by
  have admitted : (create {} []).admits (tickingHistory ++ [.schedule 0]) = true := by decide
  have ended : ((create {} []).after (tickingHistory ++ [.schedule 0])).loopOf 0 ≠ .absent := by decide
  have shut : ((create {} []).after tickingHistory).isShut = true := by decide
  obtain ⟨once, -, -, -, -, silent, -⟩ :=
    one_schedule_per_periodic_task {} [] tickingHistory [.schedule 0] admitted 0
  rw [if_neg ended] at once
  exact ⟨admitted, once, (silent shut).trans (by decide)⟩

end Engine

end TaskEngine
