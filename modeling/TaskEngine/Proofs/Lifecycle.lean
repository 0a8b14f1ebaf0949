/-
  TaskEngine/Proofs/Lifecycle.lean
  ================================
  **The life of an engine goes one way, and its tasks go along.**

  The phase takes one step at a time, and never back (`turns_perform`).  That a running engine has to
  stop before it has stopped rests on its watcher, which a shutdown waits for and which ends only
  with the run (`Watched`).

  The status of a task is what the phase and the number of its runs say, with one exception: a
  schedule that ends over a cancelled run token marks its task as stopping, which may happen before
  the watcher has moved the phase (`TaskRecord.Follows`).  Whatever changes a record keeps that, and
  does not take the status back (`Change.heeds`); a mark is never taken away by a run that ends, and a
  run only begins where the gate is open, so where there is no mark.
-/
import TaskEngine.Proofs.Closing
import TaskEngine.Proofs.Stillness

namespace TaskEngine

/-! ## 1. The order of a life -/

/-- The steps of a life. -/
inductive Phase.Turns : Phase → Phase → Prop where
  | start : Turns .notStarted .running
  | close : Turns .running .stopping
  | finish : Turns .stopping .stopped
  /-- An engine that was never started has nothing to wait for. -/
  | skip : Turns .notStarted .stopped

/-- How far a task has come in its life. -/
def TaskStatus.rank : TaskStatus → Nat
  | .notStarted => 0
  | .idle | .running => 1
  | .stopping => 2
  | .stopped => 3

theorem TaskStatus.rank_le (s : TaskStatus) : s.rank ≤ 3 := by
  cases s <;> decide

/-! ## 2. Records -/

namespace TaskRecord

variable {task : TaskRecord} {phase : Phase} {cancelled : Bool}

/-- The status is the one that follows from the phase and the runs in flight, unless the task was
marked as stopping ahead of the phase. -/
structure Follows (task : TaskRecord) (phase : Phase) (cancelled : Bool) : Prop where
  fresh : phase = .notStarted → task.running = 0
  status : task.status = statusIn task.running phase ∨
    phase = .running ∧ cancelled = true ∧ task.status = .stopping

theorem follows_of_status (started : phase ≠ .notStarted)
    (status : task.status = statusIn task.running phase) : task.Follows phase cancelled :=
  ⟨fun fresh => absurd fresh started, .inl status⟩

theorem rank_statusIn (runs runs' : Nat) (phase : Phase) :
    (statusIn runs phase).rank = (statusIn runs' phase).rank := by
  cases phase with
  | running =>
      simp only [statusIn]
      split <;> split <;> rfl
  | _ => rfl

/-- A run that ends keeps the status up to date, and does not take a mark away. -/
theorem Follows.conclude (h : task.Follows phase cancelled) (now : Instant) (outcome : Outcome) :
    (task.conclude phase now outcome).Follows phase cancelled ∧
      task.status.rank ≤ (task.conclude phase now outcome).status.rank := by
  have status : (task.conclude phase now outcome).status =
      if task.status.isClosing then task.status else statusIn (task.running - 1) phase := rfl
  refine ⟨⟨fun fresh => ?_, ?_⟩, ?_⟩
  · rw [conclude_running, h.fresh fresh]
  · rw [conclude_running, status]
    rcases h.status with same | ⟨running, marked, stopping⟩
    · left
      rw [same]
      cases phase with
      | running =>
          have open' : (statusIn task.running .running).isClosing = false := by
            simp only [statusIn]
            split <;> rfl
          rw [if_neg (by simp [open'])]
      | _ => rfl
    · exact .inr ⟨running, marked, by rw [stopping]; rfl⟩
  · rw [status]
    split
    · exact Nat.le_refl _
    · rcases h.status with same | ⟨-, -, stopping⟩
      · rw [same]
        exact Nat.le_of_eq (rank_statusIn ..)
      · exact absurd (by rw [stopping]; rfl) ‹¬task.status.isClosing = true›

/-- A run that begins behind an open gate finds a task without a mark. -/
theorem Follows.begin (h : task.Follows .running false) (now : Instant) :
    (task.begin now).Follows .running false ∧ task.status.rank ≤ (task.begin now).status.rank := by
  have busy : (task.begin now).status = statusIn (task.running + 1) .running := by
    simp [statusIn, TaskRecord.begin]
  refine ⟨follows_of_status (by decide) busy, ?_⟩
  rcases h.status with same | ⟨-, marked, -⟩
  · rw [same, busy]
    exact Nat.le_of_eq (rank_statusIn ..)
  · cases marked

theorem rank_markStopping (task : TaskRecord) : task.status.rank ≤ task.markStopping.status.rank := by
  unfold markStopping
  cases status : task.status <;> simp [status, TaskStatus.rank]

/-- Once the run token is cancelled, a mark may come at any moment. -/
theorem Follows.markStopping (h : task.Follows phase true) (started : phase ≠ .notStarted) :
    task.markStopping.Follows phase true := by
  refine ⟨fun fresh => absurd fresh started, ?_⟩
  unfold TaskRecord.markStopping
  cases phase with
  | notStarted => exact absurd rfl started
  | running =>
      have going : task.status ≠ .stopped := by
        rcases h.status with same | ⟨-, -, stopping⟩
        · rw [same, statusIn]
          split <;> decide
        · rw [stopping]
          decide
      rw [if_neg going]
      exact .inr ⟨rfl, rfl, rfl⟩
  | stopping =>
      have stopping : task.status = .stopping := by simpa [statusIn] using h.status
      rw [if_neg (by rw [stopping]; decide)]
      exact .inl rfl
  | stopped =>
      have stopped : task.status = .stopped := by simpa [statusIn] using h.status
      rw [if_pos stopped]
      exact .inl stopped

/-- What has to do with the status is the same. -/
structure Level (old new : TaskRecord) : Prop where
  status : new.status = old.status
  running : new.running = old.running

theorem Level.refl (task : TaskRecord) : task.Level task := ⟨rfl, rfl⟩

/-- More tokens may be cancelled. -/
theorem Follows.level {new : TaskRecord} {later : Bool} (h : task.Follows phase cancelled)
    (level : task.Level new) (stays : phase = .running → cancelled = true → later = true) :
    new.Follows phase later := by
  constructor
  · rw [level.running]
    exact h.fresh
  · rw [level.status, level.running]
    exact h.status.imp_right fun ⟨running, marked, stopping⟩ =>
      ⟨running, stays running marked, stopping⟩

end TaskRecord

namespace Engine

variable {e e' : Engine}

/-! ## 3. The tasks of an engine -/

/-- The status of the task follows the phase of the engine. -/
abbrev Rules (e : Engine) (task : TaskRecord) : Prop :=
  task.Follows e.phase (e.isCancelled e.runToken)

/-- In the later state every task follows the phase, and none was taken back. -/
structure Heeds (e e' : Engine) : Prop where
  follows : ∀ task ∈ e'.tasks, e'.Rules task
  onward : ∀ (t : TaskId) (old : TaskRecord), e.tasks[t]? = some old →
    ∃ new, e'.tasks[t]? = some new ∧ old.status.rank ≤ new.status.rank

theorem Heeds.refl (follows : ∀ task ∈ e.tasks, e.Rules task) : Heeds e e :=
  ⟨follows, fun _ old found => ⟨old, found, Nat.le_refl _⟩⟩

theorem Heeds.trans {e'' : Engine} (first : Heeds e e') (second : Heeds e' e'') : Heeds e e'' := by
  refine ⟨second.follows, fun t old found => ?_⟩
  obtain ⟨mid, found, le⟩ := first.onward t old found
  obtain ⟨new, found, le'⟩ := second.onward t mid found
  exact ⟨new, found, Nat.le_trans le le'⟩

theorem heeds_of_forall₂ {R : TaskRecord → TaskRecord → Prop}
    (follows : ∀ task ∈ e.tasks, e.Rules task) (tasks : List.Forall₂ R e.tasks e'.tasks)
    (keeps : ∀ old new, R old new → e.Rules old →
      e'.Rules new ∧ old.status.rank ≤ new.status.rank) : Heeds e e' := by
  constructor
  · intro new mem
    obtain ⟨t, found⟩ := List.mem_iff_getElem?.mp mem
    obtain ⟨old, known, related⟩ := forall₂_getElem? tasks found
    exact (keeps old new related (follows old (List.mem_of_getElem? known))).1
  · intro t old known
    obtain ⟨new, found, related⟩ := forall₂_getElem? tasks.flip known
    exact ⟨new, found, (keeps old new related (follows old (List.mem_of_getElem? known))).2⟩

theorem heeds_of_set {t : TaskId} {task new : TaskRecord} (follows : ∀ task ∈ e.tasks, e.Rules task)
    (known : e.tasks[t]? = some task) (tasks : e'.tasks = e.tasks.set t new)
    (phase : e'.phase = e.phase) (token : e'.isCancelled e'.runToken = e.isCancelled e.runToken)
    (rules : e.Rules new) (rank : task.status.rank ≤ new.status.rank) : Heeds e e' := by
  constructor
  · intro other mem
    rw [Rules, phase, token]
    rw [tasks] at mem
    rcases List.mem_or_eq_of_mem_set mem with mem | rfl
    · exact follows other mem
    · exact rules
  · intro s old found
    by_cases same : s = t
    · subst same
      obtain rfl : task = old := Option.some.inj (known.symm.trans found)
      have inside : s < e.tasks.length := (List.getElem?_eq_some_iff.mp known).1
      exact ⟨new, by rw [tasks, List.getElem?_set_self inside], rank⟩
    · exact ⟨old, by rw [tasks, List.getElem?_set_ne (Ne.symm same), found], Nat.le_refl _⟩

/-- Nothing happens to the phase or to any status; tokens may be cancelled. -/
theorem heeds_of_level (follows : ∀ task ∈ e.tasks, e.Rules task)
    (tasks : List.Forall₂ TaskRecord.Level e.tasks e'.tasks) (phase : e'.phase = e.phase)
    (stays : e.phase = .running → e.isCancelled e.runToken = true →
      e'.isCancelled e'.runToken = true) : Heeds e e' := by
  refine heeds_of_forall₂ follows tasks fun old new level rules => ⟨?_, ?_⟩
  · rw [Rules, phase]
    exact rules.level level stays
  · exact Nat.le_of_eq (congrArg TaskStatus.rank level.status.symm)

theorem heeds_of_aside (follows : ∀ task ∈ e.tasks, e.Rules task) (aside : Aside e e') :
    Heeds e e' := by
  refine heeds_of_level follows ?_ aside.phase fun _ cancelled => ?_
  · rw [aside.tasks]
    exact List.forall₂_same.mpr fun task _ => .refl task
  · rw [isCancelled, aside.cancellation, aside.runToken]
    exact cancelled

theorem heeds_modify (follows : ∀ task ∈ e.tasks, e.Rules task) (t : TaskId)
    {f : TaskRecord → TaskRecord} (level : ∀ task : TaskRecord, task.Level (f task)) :
    Heeds e (e.updateTask t f) :=
  heeds_of_level follows (forall₂_modify .refl level _ t) rfl fun _ => id

/-! ### Calm changes -/

theorem heeds_beginStopping (follows : ∀ task ∈ e.tasks, e.Rules task) (running : e.phase = .running) :
    Heeds e e.beginStopping := by
  refine heeds_of_forall₂ (R := fun old new => old.markStopping = new) follows
    (forall₂_map (fun _ => rfl) _) fun old new marked rules => ?_
  subst marked
  refine ⟨TaskRecord.follows_of_status nofun ?_, old.rank_markStopping⟩
  have going : old.status ≠ .stopped := by
    rcases rules.status with same | ⟨-, -, stopping⟩
    · rw [same, running, TaskRecord.statusIn]
      split <;> decide
    · rw [stopping]
      decide
  rw [TaskRecord.markStopping, if_neg going]
  rfl

theorem heeds_endLoop (follows : ∀ task ∈ e.tasks, e.Rules task) (started : e.phase ≠ .notStarted)
    (t : TaskId) (cancelled : e.isCancelled e.runToken = true) : Heeds e (e.endLoop t) := by
  refine heeds_of_forall₂
    (R := fun old new =>
      new = old ∨ new = { old with nextRun := none, loop := .ended }.markStopping)
    follows (forall₂_modify (fun _ => .inl rfl) (fun _ => .inr rfl) _ t) ?_
  rintro old new (rfl | rfl) rules
  · exact ⟨rules, Nat.le_refl _⟩
  · have cleared : ({ old with nextRun := none, loop := .ended } : TaskRecord).Follows e.phase true :=
      rules.level ⟨rfl, rfl⟩ fun _ _ => rfl
    refine ⟨?_, TaskRecord.rank_markStopping { old with nextRun := none, loop := .ended }⟩
    show TaskRecord.Follows _ e.phase (e.isCancelled e.runToken)
    rw [cancelled]
    exact cleared.markStopping started

theorem Calm.heeds (calm : Calm e e') (started : e.phase ≠ .notStarted)
    (follows : ∀ task ∈ e.tasks, e.Rules task) : Heeds e e' := by
  have same : List.Forall₂ TaskRecord.Level e.tasks e.tasks :=
    List.forall₂_same.mpr fun task _ => .refl task
  cases calm with
  | clock now later => exact heeds_of_level follows same rfl fun _ => id
  | note n remark own silent => exact heeds_of_aside follows (aside_note e remark)
  | announce event task due => exact heeds_of_aside follows (aside_announce e event task)
  | announceEnd stopped => exact heeds_of_aside follows (aside_announce e _ none)
  | beginFlush s stopped => exact heeds_of_aside follows (aside_beginFlush e s)
  | receive => exact heeds_of_aside follows (aside_receive e)
  | work i => exact heeds_of_aside follows (aside_workLane e i)
  | cancel t =>
      refine heeds_of_level follows same rfl fun _ cancelled => ?_
      show (e.cancellation.cancel t).isCancelled e.runToken = true
      rw [Cancellation.isCancelled_cancel]
      exact Bool.or_eq_true_iff.mpr (.inr cancelled)
  | start token fresh => exact absurd fresh started
  | unwatch due => exact heeds_of_level follows same rfl fun _ => id
  | beginStopping running => exact heeds_beginStopping follows running
  | setLoop t f keeps =>
      refine heeds_modify follows t fun task => ?_
      rw [keeps task]
      exact ⟨rfl, rfl⟩
  | endLoop t cancelled => exact heeds_endLoop follows started t cancelled
  | setProgress id progress => exact heeds_of_level follows same rfl fun _ cancelled => cancelled

/-! ### All changes -/

theorem newRecord_level (e : Engine) (spec : ResolvedSpec) (status : TaskStatus) :
    ({ spec, status } : TaskRecord).Level (e.newRecord spec status) := by
  unfold newRecord TaskRecord.ensureLoop
  repeat' split
  all_goals exact ⟨rfl, rfl⟩

/-- A new task has the status of one that never had a run. -/
theorem heeds_register (follows : ∀ task ∈ e.tasks, e.Rules task) (spec : ResolvedSpec)
    {status : TaskStatus} (accepted : e.initialStatus? = some status) :
    Heeds e (e.register spec status) := by
  have level := e.newRecord_level spec status
  constructor
  · intro task mem
    rcases List.mem_append.mp mem with mem | mem
    · exact follows task mem
    · obtain rfl := List.mem_singleton.mp mem
      have plain : e.Rules { spec, status } := by
        unfold initialStatus? at accepted
        split at accepted
        · rename_i fresh
          obtain rfl := Option.some.inj accepted
          exact ⟨fun _ => rfl, .inl (by rw [fresh]; rfl)⟩
        · rename_i running
          split at accepted
          · obtain rfl := Option.some.inj accepted
            exact ⟨fun _ => rfl, .inl (by rw [running]; rfl)⟩
          · cases accepted
        · cases accepted
        · cases accepted
      exact plain.level level fun _ => id
  · intro t old found
    rcases getElem?_register e spec status t with same | ⟨unknown, -⟩
    · exact ⟨old, same.trans found, Nat.le_refl _⟩
    · cases unknown.symm.trans found

theorem heeds_stop (follows : ∀ task ∈ e.tasks, e.Rules task) :
    Heeds e ({ e with phase := .stopped }.finalize) := by
  refine heeds_of_forall₂ follows e.forall₂_stop ?_
  rintro old new rfl -
  exact ⟨TaskRecord.follows_of_status nofun rfl, old.status.rank_le⟩

theorem heeds_beginRun {t : TaskId} {task : TaskRecord} (follows : ∀ task ∈ e.tasks, e.Rules task)
    (known : e.tasks[t]? = some task) (admits : e.refusal? = none) (merged : Bool)
    (waiters : List WaiterId) : Heeds e (e.beginRun t merged waiters) := by
  obtain ⟨running, uncancelled⟩ : e.phase = .running ∧ e.isCancelled e.runToken = false := by
    unfold refusal? at admits
    split at admits
    · rename_i running
      refine ⟨running, ?_⟩
      cases cancelled : e.isCancelled e.runToken with
      | false => rfl
      | true =>
          rw [cancelled] at admits
          cases admits
    · cases admits
    · cases admits
    · cases admits
  have rules := follows task (List.mem_of_getElem? known)
  rw [Rules, running, uncancelled] at rules
  obtain ⟨begun, rank⟩ := rules.begin e.now
  rw [beginRun_eq known]
  refine heeds_of_set follows known rfl rfl rfl (?_ : e.Rules (task.begin e.now)) rank
  rw [Rules, running, uncancelled]
  exact begun

theorem heeds_note (follows : ∀ task ∈ e.tasks, e.Rules task) (n : Note) : Heeds e (e.note n) :=
  heeds_of_level follows (List.forall₂_same.mpr fun task _ => .refl task) rfl fun _ => id

theorem heeds_request (follows : ∀ task ∈ e.tasks, e.Rules task) (t : TaskId)
    (waiter : Option WaiterId) : Heeds e (e.request t waiter).1 := by
  have step := e.request_step t waiter
  generalize e.request t waiter = answer at step ⊢
  cases step with
  | refused err => exact heeds_note follows _
  | skipped task known full =>
      have announced := heeds_of_aside follows (aside_announce e
        { kind := .runSkipped, task := some task.name } (some t))
      exact announced.trans (heeds_note announced.follows _)
  | merged task known admits willing full overlap =>
      have folded : Heeds e (e.updateTask t (·.fold waiter)) :=
        heeds_modify follows t fun _ => ⟨rfl, rfl⟩
      have announced := heeds_of_aside folded.follows (aside_announce _
        { kind := .runMerged, task := some task.name } (some t))
      exact (folded.trans announced).trans (heeds_note announced.follows _)
  | started task known admits willing room =>
      have begun := heeds_beginRun follows known admits false waiter.toList
      exact begun.trans (heeds_note begun.follows _)

theorem heeds_deliver (follows : ∀ task ∈ e.tasks, e.Rules task) (waiters : List WaiterId)
    (d : Delivery) : Heeds e (e.deliver waiters d) :=
  heeds_of_level follows (List.forall₂_same.mpr fun task _ => .refl task) rfl fun _ => id

theorem heeds_finish (follows : ∀ task ∈ e.tasks, e.Rules task) (id : RunId) (outcome : Outcome) :
    Heeds e (e.finish id outcome) := by
  have concluded {run : Run} {task : TaskRecord} (known : e.tasks[run.id.task]? = some task) :
      Heeds e (e.conclude run task outcome) := by
    obtain ⟨rules, rank⟩ := (follows task (List.mem_of_getElem? known)).conclude e.now outcome
    exact heeds_of_set follows known rfl rfl rfl rules rank
  have step := e.finish_step id outcome
  generalize e.finish id outcome = after at step ⊢
  cases step with
  | unknown => exact .refl follows
  | last run task found known settled => exact concluded known
  | closed run task found known owed closing =>
      exact (concluded known).trans (heeds_deliver (concluded known).follows _ _)
  | again run task found known owed admits =>
      have open' : (e.conclude run task outcome).refusal? = none :=
        Option.isNone_iff_eq_none.mp admits
      exact (concluded known).trans
        (heeds_beginRun (concluded known).follows (known_conclude known outcome) open' _ _)

theorem Change.heeds {l : Licence} (change : Change l e e') (started : e.phase ≠ .notStarted)
    (follows : ∀ task ∈ e.tasks, e.Rules task) : Heeds e e' := by
  have same : List.Forall₂ TaskRecord.Level e.tasks e.tasks :=
    List.forall₂_same.mpr fun task _ => .refl task
  cases change with
  | calm calm => exact calm.heeds started follows
  | register spec status accepted room => exact heeds_register follows spec accepted
  | stop idle covers => exact heeds_stop follows
  | drain closing covers =>
      exact heeds_of_level follows (forall₂_map (fun _ => ⟨rfl, rfl⟩) _) rfl fun _ => id
  | request t => exact heeds_request follows t none
  | requestWaiting t covers =>
      have drawn : Heeds e (e.drawSerial t) := heeds_modify follows t fun _ => ⟨rfl, rfl⟩
      exact drawn.trans (heeds_request drawn.follows t _)
  | detach w leaves => exact heeds_modify follows w.task fun _ => ⟨rfl, rfl⟩
  | finish id outcome covers => exact heeds_finish follows id outcome
  | abandon id refuses covers =>
      unfold Engine.abandon
      split
      · exact heeds_of_level follows same rfl fun _ cancelled => cancelled
      · exact .refl follows

/-! ### Moves -/

/-- An engine that starts takes all of its tasks along. -/
theorem heeds_entered (follows : ∀ task ∈ e.tasks, e.Rules task) (fresh : e.phase = .notStarted)
    (token : Token) : Heeds e (e.entered token) := by
  have pumped := aside_startPump { e with
    phase := .running
    runToken := (e.cancellation.child token).1
    cancellation := (e.cancellation.child token).2
    watching := true }
  refine heeds_of_forall₂ (R := fun old new => old.activate.ensureLoop = new) follows ?_ ?_
  · show List.Forall₂ _ e.tasks (List.map _ _)
    rw [pumped.tasks]
    exact forall₂_map (fun _ => rfl) _
  · rintro old new rfl rules
    have waits : old.status = .notStarted := by
      rcases rules.status with same | ⟨running, -, -⟩
      · rw [same, fresh]
        rfl
      · rw [fresh] at running
        cases running
    have level : old.activate.Level old.activate.ensureLoop := by
      unfold TaskRecord.ensureLoop
      split <;> exact ⟨rfl, rfl⟩
    have active : old.activate.status = .idle ∧ old.activate.running = 0 := by
      rw [TaskRecord.activate, if_pos waits]
      exact ⟨rfl, rules.fresh fresh⟩
    have phase : (e.entered token).phase = .running := pumped.phase
    refine ⟨?_, ?_⟩
    · rw [Rules, phase]
      refine TaskRecord.follows_of_status nofun ?_
      rw [level.status, level.running, active.1, active.2]
      rfl
    · rw [waits]
      exact Nat.zero_le _

/-- Before its start an engine takes no requests and has no runs and no schedules, so no task gets
going. -/
theorem heeds_of_notStarted {m : Move} (fresh : e.phase = .notStarted) (idle : e.isIdle = true)
    (follows : ∀ task ∈ e.tasks, e.Rules task) (allowed : e.allows m = true) :
    Heeds e (e.perform m) := by
  have refused : e.refusal? = some .notRunning := by rw [refusal?, fresh]
  cases m with
  | add spec =>
      simp only [perform, add]
      split
      · exact .refl follows
      · split
        · exact .refl follows
        · rename_i status accepted
          split
          · exact .refl follows
          · exact heeds_register follows _ accepted
  | start token =>
      simp only [perform, start, fresh]
      have entered := heeds_entered follows fresh token
      exact entered.trans (heeds_of_aside entered.follows (aside_announce _ _ none))
  | shutdown bound grace =>
      simp only [perform, shutdown, fresh]
      have stopped := heeds_stop follows
      exact stopped.trans (heeds_of_aside stopped.follows (aside_beginFlush _ _))
  | awaitShutdown s => simp [allows, fresh] at allowed
  | receive => exact heeds_of_aside follows (aside_receive e)
  | work i => exact heeds_of_aside follows (aside_workLane e i)
  | _ =>
      have rests := rests_perform idle refused allowed rfl
      refine heeds_of_level follows (rests.tasks.imp fun old new same => ?_) rests.phase ?_
      · rw [same.same]
        exact ⟨rfl, rfl⟩
      · intro running
        rw [fresh] at running
        cases running

theorem heeds_perform {m : Move} (still : e.Still) (follows : ∀ task ∈ e.tasks, e.Rules task)
    (allowed : e.allows m = true) : Heeds e (e.perform m) := by
  by_cases fresh : e.phase = .notStarted
  · exact heeds_of_notStarted fresh (still.fresh fresh) follows allowed
  · have both : (e.perform m).phase ≠ .notStarted ∧ Heeds e (e.perform m) := by
      have changes := changes_perform allowed (Licence.suits_free e m)
      refine changes.keeps (P := fun after => after.phase ≠ .notStarted ∧ Heeds e after) ?_
        ⟨fresh, .refl follows⟩
      rintro old new change ⟨started, heeds⟩
      exact ⟨fun back => started (change.feeds.phase.1 back),
        heeds.trans (change.heeds started heeds.follows)⟩
    exact both.2

/-! ## 4. The way of the engine -/

/-- A running engine is watched. -/
def Watched (e : Engine) : Prop := e.phase = .running → e.watching = true

/-- The engine has stopped, and nothing was announced but the end. -/
structure Halts (e e' : Engine) : Prop where
  phase : e'.phase = .stopped
  runToken : e'.runToken = e.runToken
  cancelled : e'.cancellation.cancelled = e.cancellation.cancelled
  heralds : e'.heralds = e.heralds

theorem halts_beginFlush (stopped : Halts e e') (s : Shutdown) : Halts e (e'.beginFlush s).1 :=
  have steady := (aside_beginFlush e' s).steady (reports_beginFlush e' s)
  ⟨steady.phase.trans stopped.phase, steady.runToken.trans stopped.runToken,
    steady.cancelled.trans stopped.cancelled, steady.heralds.trans stopped.heralds⟩

theorem steady_turnShutdown (s : Shutdown) :
    Steady e (e.turnShutdown s).1 ∨ e.isIdle = true ∧ Halts e (e.turnShutdown s).1 := by
  cases stage : s.stage with
  | awaitingPump =>
      simp only [turnShutdown, stage]
      exact .inl (.refl e)
  | awaitingWorkers =>
      simp only [turnShutdown, stage]
      exact .inl (.refl e)
  | draining =>
      simp only [turnShutdown, stage]
      by_cases idle : e.isIdle = true
      · have stopped : Halts e ({ e with phase := .stopped }.finalize.publish
            { kind := .allStoppedWithin }) := ⟨rfl, rfl, rfl, rfl⟩
        rw [if_pos idle]
        exact .inr ⟨idle, halts_beginFlush stopped s⟩
      · rw [if_neg idle]
        left
        split <;> exact ⟨rfl, rfl, rfl, rfl, rfl⟩

/-- What a move comes to for the way of the engine: nothing, a token less to hang on, its start, the
beginning of its end, or the end. -/
inductive Turn (e : Engine) : Move → Engine → Prop where
  /-- The watcher may leave an engine that is not running. -/
  | stays {e' : Engine} (m : Move) (phase : e'.phase = e.phase) (runToken : e'.runToken = e.runToken)
      (watching : e.phase = .running → e'.watching = e.watching)
      (cancelled : e'.cancellation.cancelled = e.cancellation.cancelled)
      (heralds : e'.heralds = e.heralds) : Turn e m e'
  | cancels (token : Token) : Turn e (.cancel token) (e.cancel token)
  | starts {e' : Engine} (token : Token) (fresh : e.phase = .notStarted)
      (phase : e'.phase = .running) (runToken : e'.runToken = (e.cancellation.child token).1)
      (watching : e'.watching = true)
      (cancelled : e'.cancellation.cancelled = e.cancellation.cancelled)
      (heralds : e'.heralds = .managerStarted :: e.heralds) : Turn e (.start token) e'
  | closes {e' : Engine} (m : Move) (running : e.phase = .running) (phase : e'.phase = .stopping)
      (runToken : e'.runToken = e.runToken)
      (cancelled : e'.cancellation.cancelled = e.runToken :: e.cancellation.cancelled)
      (heralds : e'.heralds = .shutdownRequested :: e.heralds) : Turn e m e'
  | stops {e' : Engine} (m : Move) (due : e.phase = .notStarted ∨ e.phase = .stopping)
      (halts : Halts e e') : Turn e m e'

theorem Steady.turn (h : Steady e e') (m : Move) : Turn e m e' :=
  .stays m h.phase h.runToken (fun _ => h.watching) h.cancelled h.heralds

theorem turn_start (e : Engine) (token : Token) : Turn e (.start token) (e.start token).1 := by
  cases phase : e.phase with
  | notStarted =>
      have pumped := aside_startPump { e with
        phase := .running
        runToken := (e.cancellation.child token).1
        cancellation := (e.cancellation.child token).2
        watching := true }
      have journal : (e.entered token).journal = e.journal := journal_startPump _
      simp only [start, phase]
      have cancellation : (e.entered token).cancellation = (e.cancellation.child token).2 :=
        pumped.cancellation
      have cancelled : (e.entered token).cancellation.cancelled = e.cancellation.cancelled := by
        rw [cancellation]
        rfl
      refine .starts token phase pumped.phase pumped.runToken pumped.watching cancelled ?_
      show List.filterMap _ (_ :: (e.entered token).journal) = _
      rw [journal]
      rfl
  | _ =>
      simp only [start, phase]
      exact (Steady.refl e).turn _

theorem turn_turnWatcher (e : Engine) : Turn e .watch e.turnWatcher := by
  cases phase : e.phase with
  | running =>
      simp only [turnWatcher, phase]
      exact .closes _ phase rfl rfl rfl rfl
  | _ =>
      simp only [turnWatcher, phase]
      exact .stays _ phase.symm rfl (fun running => by rw [phase] at running; cases running) rfl rfl

/-- A shutdown of an engine that was never started. -/
theorem halts_shutdown (fresh : e.phase = .notStarted) (bound : Bound) (grace : Duration) :
    Halts e (e.shutdown bound grace).1 := by
  have stopped : Halts e ({ e with phase := .stopped }.finalize) := ⟨rfl, rfl, rfl, rfl⟩
  simp only [shutdown, fresh]
  exact halts_beginFlush stopped _

theorem turn_shutdown (watched : e.Watched) (bound : Bound) (grace : Duration) :
    Turn e (.shutdown bound grace) (e.shutdown bound grace).1 := by
  cases phase : e.phase with
  | notStarted => exact .stops _ (.inl phase) (halts_shutdown phase bound grace)
  | running =>
      simp only [shutdown, phase]
      let closing := e.beginStopping.publish { kind := .shutdownRequested }
      rcases closing.steady_turnShutdown { bound, grace } with steady | ⟨idle, -⟩
      · exact .closes _ phase steady.phase steady.runToken steady.cancelled steady.heralds
      · -- the watcher is still there, so the shutdown has something to wait for
        have unwatched : e.watching = false := ((isIdle_iff closing).mp idle).2.1
        rw [watched phase] at unwatched
        cases unwatched
  | stopping =>
      simp only [shutdown, phase]
      rcases e.steady_turnShutdown { bound, grace } with steady | ⟨-, halts⟩
      · exact steady.turn _
      · exact .stops _ (.inr phase) halts
  | stopped =>
      simp only [shutdown, phase]
      exact (Steady.refl e).turn _

theorem turn_perform {m : Move} (watched : e.Watched) (allowed : e.allows m = true) :
    Turn e m (e.perform m) := by
  cases m with
  | start token => exact turn_start e token
  | cancel token => exact .cancels token
  | watch => exact turn_turnWatcher e
  | shutdown bound grace => exact turn_shutdown watched bound grace
  | awaitShutdown s =>
      rcases e.steady_turnShutdown s with steady | ⟨-, halts⟩
      · exact steady.turn _
      · rcases Bool.or_eq_true_iff.mp allowed with stopping | stopped
        · exact .stops _ (.inr (beq_iff_eq.mp stopping)) halts
        · have phase := beq_iff_eq.mp stopped
          exact .stays _ (halts.phase.trans phase.symm) halts.runToken
            (fun running => by rw [phase] at running; cases running) halts.cancelled halts.heralds
  | _ => exact (steady_perform rfl (by rintro _ ⟨⟩) allowed).turn _

theorem Watched.turn {m : Move} (h : e.Watched) (turn : Turn e m e') : e'.Watched := by
  intro running
  cases turn with
  | stays _ phase runToken watching cancelled heralds =>
      have was : e.phase = .running := phase ▸ running
      exact (watching was).trans (h was)
  | cancels token => exact h running
  | starts token fresh phase runToken watching cancelled heralds => exact watching
  | closes _ was phase runToken cancelled heralds =>
      rw [phase] at running
      cases running
  | stops _ due halts =>
      rw [halts.phase] at running
      cases running

/-- The phase stays as it is or takes one step. -/
theorem Turn.turns {m : Move} (turn : Turn e m e') :
    e'.phase = e.phase ∨ e.phase.Turns e'.phase := by
  cases turn with
  | stays _ phase runToken watching cancelled heralds => exact .inl phase
  | cancels token => exact .inl rfl
  | starts token fresh phase runToken watching cancelled heralds =>
      rw [fresh, phase]
      exact .inr .start
  | closes _ running phase runToken cancelled heralds =>
      rw [running, phase]
      exact .inr .close
  | stops _ due halts =>
      rw [halts.phase]
      rcases due with fresh | stopping
      · rw [fresh]
        exact .inr .skip
      · rw [stopping]
        exact .inr .finish

theorem watched_create (config : Config) (subscribers : List Subscriber) :
    (create config subscribers).Watched :=
  nofun

theorem Watched.after (h : e.Watched) {moves : List Move} (admitted : e.admits moves = true) :
    (e.after moves).Watched :=
  invariant_after (fun _ _ allowed watched => watched.turn (turn_perform watched allowed)) admitted h

/-- What every turn keeps, every history keeps. -/
theorem turns_after {P : Engine → Prop} (keeps : ∀ e m e', Turn e m e' → P e → P e')
    {moves : List Move} (watched : e.Watched) (admitted : e.admits moves = true) (he : P e) :
    P (e.after moves) := by
  have both : (e.after moves).Watched ∧ P (e.after moves) := by
    refine invariant_after (P := fun e => e.Watched ∧ P e) ?_ admitted ⟨watched, he⟩
    rintro e m allowed ⟨watched, he⟩
    have turn := turn_perform watched allowed
    exact ⟨watched.turn turn, keeps _ _ _ turn he⟩
  exact both.2

/-! ## 5. All histories -/

/-- **The life goes one way.**  Whatever happens to an engine, and in whatever order: its phase takes
one step at a time, on and never back; no task goes back either; and in every state the tasks are as
far as the engine is.  None has begun before the start; while the engine runs, a task is running if it
has runs and idle if it has none, unless the run token is cancelled, when it may be stopping already;
all are stopping while the engine is, and all have stopped when it has. -/
theorem lifecycle_goes_one_way (config : Config) (subscribers : List Subscriber)
    (before later : List Move)
    (admitted : (create config subscribers).admits (before ++ later) = true) :
    let e := (create config subscribers).after before
    let e' := (create config subscribers).after (before ++ later)
    (∀ m rest, later = m :: rest →
      (e.perform m).phase = e.phase ∨ e.phase.Turns (e.perform m).phase) ∧
    Relation.ReflTransGen Phase.Turns e.phase e'.phase ∧
    (∀ (t : TaskId) (old : TaskRecord), e.tasks[t]? = some old →
      ∃ new, e'.tasks[t]? = some new ∧ old.status.rank ≤ new.status.rank) ∧
    (e'.phase = .notStarted → ∀ task ∈ e'.tasks, task.status = .notStarted ∧ task.running = 0) ∧
    (e'.phase = .running → e'.isCancelled e'.runToken = false → ∀ task ∈ e'.tasks,
      task.status = if 0 < task.running then .running else .idle) ∧
    (e'.phase = .running → ∀ task ∈ e'.tasks,
      task.status = .stopping ∨ task.status = if 0 < task.running then .running else .idle) ∧
    (e'.phase = .stopping → ∀ task ∈ e'.tasks, task.status = .stopping) ∧
    (e'.phase = .stopped → ∀ task ∈ e'.tasks, task.status = .stopped) := by
  intro e e'
  have is : e' = e.after later := after_append ..
  obtain ⟨first, rest⟩ := (admits_append ..).mp admitted
  have watched : e.Watched := (watched_create config subscribers).after first
  have along {e₀ : Engine} {moves : List Move} (still : e₀.Still)
      (follows : ∀ task ∈ e₀.tasks, e₀.Rules task) (admitted : e₀.admits moves = true) :
      Heeds e₀ (e₀.after moves) := by
    have both : (e₀.after moves).Still ∧ Heeds e₀ (e₀.after moves) := by
      refine invariant_after (P := fun e => e.Still ∧ Heeds e₀ e) ?_ admitted ⟨still, .refl follows⟩
      rintro e m allowed ⟨still, heeds⟩
      exact ⟨still.perform allowed, heeds.trans (heeds_perform still heeds.follows allowed)⟩
    exact both.2
  have heeds : Heeds e e' := by
    have start := along (still_create config subscribers) (fun _ mem => nomatch mem) first
    rw [is]
    exact along (still_after first) start.follows rest
  refine ⟨?_, ?_, heeds.onward, ?_, ?_, ?_, ?_, ?_⟩
  · rintro m moves rfl
    exact (turn_perform watched ((admits_cons ..).mp rest).1).turns
  · rw [is]
    refine turns_after (P := fun later => Relation.ReflTransGen Phase.Turns e.phase later.phase) ?_
      watched rest .refl
    intro mid m next turn path
    rcases turn.turns with same | turns
    · rw [same]
      exact path
    · exact path.tail turns
  · intro fresh task mem
    have rules := heeds.follows task mem
    rcases rules.status with same | ⟨running, -, -⟩
    · rw [fresh] at same
      exact ⟨same, rules.fresh fresh⟩
    · rw [fresh] at running
      cases running
  · intro running uncancelled task mem
    rcases (heeds.follows task mem).status with same | ⟨-, cancelled, -⟩
    · rwa [running] at same
    · rw [uncancelled] at cancelled
      cases cancelled
  · intro running task mem
    rcases (heeds.follows task mem).status with same | ⟨-, -, stopping⟩
    · rw [running] at same
      exact .inr same
    · exact .inl stopping
  · intro closing task mem
    have rules := heeds.follows task mem
    rw [Rules, closing] at rules
    simpa [TaskRecord.statusIn] using rules.status
  · intro stopped task mem
    have rules := heeds.follows task mem
    rw [Rules, stopped] at rules
    simpa [TaskRecord.statusIn] using rules.status

/-- A run that ends while the engine is stopping, and with it the one that was owed. -/
theorem lifecycle_goes_one_way_folded :
    (create {} []).admits (foldedHistory ++
      [.shutdown (.token (.named "never")) .zero, .finish ⟨0, 1⟩ .succeeded]) = true ∧
    ((create {} []).after (foldedHistory ++
      [.shutdown (.token (.named "never")) .zero, .finish ⟨0, 1⟩ .succeeded])).phase = .stopping ∧
    ∀ task ∈ ((create {} []).after (foldedHistory ++
      [.shutdown (.token (.named "never")) .zero, .finish ⟨0, 1⟩ .succeeded])).tasks,
        task.status = .stopping := by
  have admitted : (create {} []).admits (foldedHistory ++
      [.shutdown (.token (.named "never")) .zero, .finish ⟨0, 1⟩ .succeeded]) = true := by decide
  have closing : ((create {} []).after (foldedHistory ++
      [.shutdown (.token (.named "never")) .zero, .finish ⟨0, 1⟩ .succeeded])).phase = .stopping := by
    decide
  obtain ⟨-, -, -, -, -, -, stopping, -⟩ := lifecycle_goes_one_way {} [] foldedHistory _ admitted
  exact ⟨admitted, closing, stopping closing⟩

end Engine

end TaskEngine
