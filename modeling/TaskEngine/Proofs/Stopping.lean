/-
  TaskEngine/Proofs/Stopping.lean
  ===============================
  **How an engine comes to have stopped, and what may happen to it afterwards.**

  Only a shutdown that finds nothing left to wait for makes a started engine one that has stopped
  (`perform_stops`).  From then on nothing is left to wait for, and all that still happens is that
  the lanes are fed and that further shutdowns, which had been under way, come to the same end
  (`perform_stopped`).
-/
import TaskEngine.Proofs.Publishing

namespace TaskEngine

/-- Whether events of this kind announce that an engine was started or is to stop. -/
def EventKind.isHerald : EventKind → Bool
  | .managerStarted | .shutdownRequested => true
  | _ => false

def Note.herald? : Note → Option EventKind
  | .published event _ => if event.kind.isHerald then some event.kind else none
  | _ => none

/-- Nothing changed but serial numbers and callers that have left. -/
structure TaskRecord.Rests (old new : TaskRecord) : Prop where
  same : new = { old with parked := new.parked, nextSerial := new.nextSerial }
  parked : new.parked ⊆ old.parked

theorem TaskRecord.Rests.refl (t : TaskRecord) : t.Rests t := ⟨rfl, List.Subset.refl _⟩

theorem TaskRecord.Rests.loop {old new : TaskRecord} (h : old.Rests new) : new.loop = old.loop := by
  rw [h.same]

namespace Engine

variable {e e' : Engine}

/-! ## 1. Engines with nothing left to wait for -/

theorem isIdle_iff (e : Engine) : e.isIdle = true ↔
    e.runs = [] ∧ e.watching = false ∧ ∀ t ∈ e.tasks, t.loop.isAlive = false := by
  simp [isIdle, and_assoc]

theorem isIdle_congr (runs : e'.runs = e.runs) (watching : e'.watching = e.watching)
    (loops : e'.tasks.map (·.loop) = e.tasks.map (·.loop)) : e'.isIdle = e.isIdle := by
  have alive (e : Engine) : (e.tasks.all fun t => !t.loop.isAlive) =
      (e.tasks.map (·.loop)).all fun loop => !loop.isAlive := by
    rw [List.all_map]
    rfl
  rw [isIdle, alive, runs, watching, loops, ← alive, isIdle]

theorem loops_map {f : TaskRecord → TaskRecord} (same : ∀ t, (f t).loop = t.loop)
    (tasks : List TaskRecord) : (tasks.map f).map (·.loop) = tasks.map (·.loop) := by
  rw [List.map_map]
  exact List.map_congr_left fun t _ => same t

theorem isIdle_finalize (e : Engine) : e.finalize.isIdle = e.isIdle := by
  refine isIdle_congr rfl rfl ?_
  show ((e.tasks.map _).map _).map _ = _
  rw [loops_map (f := TaskRecord.finalize) (fun _ => rfl),
    loops_map (f := TaskRecord.forget) (fun _ => rfl)]

theorem run?_of_isIdle (idle : e.isIdle = true) (id : RunId) : e.run? id = none := by
  rw [run?, ((isIdle_iff e).mp idle).1]
  rfl

/-! ## 2. Engines at rest -/

/-- Nothing changed but the clock, the tokens, the notes and what callers did who ask, leave or
look. -/
structure Rests (e e' : Engine) : Prop where
  published : Published e e' []
  phase : e'.phase = e.phase
  runs : e'.runs = e.runs
  watching : e'.watching = e.watching
  tasks : List.Forall₂ TaskRecord.Rests e.tasks e'.tasks

theorem rests_of_tasks (published : Published e e' []) (phase : e'.phase = e.phase)
    (runs : e'.runs = e.runs) (watching : e'.watching = e.watching) (tasks : e'.tasks = e.tasks) :
    Rests e e' :=
  ⟨published, phase, runs, watching, tasks ▸ List.forall₂_same.mpr fun t _ => .refl t⟩

theorem Rests.refl (e : Engine) : Rests e e :=
  rests_of_tasks (published_nothing rfl) rfl rfl rfl rfl

theorem Rests.isIdle (h : Rests e e') : e'.isIdle = e.isIdle :=
  isIdle_congr h.runs h.watching (map_eq_of_forall₂ h.tasks fun _ _ rests => rests.loop)

theorem request_of_refused {err : RequestError} (refused : e.refusal? = some err) (t : TaskId)
    (waiter : Option WaiterId) :
    (e.request t waiter).1 = e.note (.requested t waiter (.error err)) := by
  simp only [request, consider, refused]

theorem turnLoop_of_isIdle (idle : e.isIdle = true) (t : TaskId) : e.turnLoop t = e := by
  have loops := ((isIdle_iff e).mp idle).2.2
  unfold turnLoop
  cases known : e.tasks[t]? with
  | none => rfl
  | some task =>
      have dead := loops task (List.mem_of_getElem? known)
      cases loop : task.loop with
      | absent => cases schedule : task.spec.schedule <;> simp [loop, schedule]
      | ended => cases schedule : task.spec.schedule <;> simp [loop, schedule]
      | fresh => rw [loop] at dead; cases dead
      | sleeping base due => rw [loop] at dead; cases dead
      | listening base seen => rw [loop] at dead; cases dead

/-- Whether the move registers a task, starts or stops the engine, or feeds its lanes. -/
def Move.isOfManager : Move → Bool
  | .add _ | .start _ | .shutdown .. | .awaitShutdown _ | .receive | .work _ => true
  | .clock _ | .cancel _ | .request _ | .requestWaiting _ | .detach _ | .announce .. | .progress ..
  | .finish .. | .abandon _ | .schedule _ | .watch | .remark _ => false

/-- While nothing is going on and requests are turned away, all other moves leave it at that. -/
theorem rests_perform {m : Move} {err : RequestError} (idle : e.isIdle = true)
    (refused : e.refusal? = some err) (allowed : e.allows m = true) (other : m.isOfManager = false) :
    Rests e (e.perform m) := by
  have none (id : RunId) := run?_of_isIdle idle id
  have noRuns := ((isIdle_iff e).mp idle).1
  cases m with
  | clock now => exact rests_of_tasks (published_nothing rfl) rfl rfl rfl rfl
  | cancel token => exact rests_of_tasks (published_nothing rfl) rfl rfl rfl rfl
  | request t =>
      rw [perform, request_of_refused refused]
      exact rests_of_tasks (published_nothing rfl) rfl rfl rfl rfl
  | requestWaiting t =>
      have refused' : (e.drawSerial t).refusal? = some err := refused
      rw [perform, requestWaiting_fst, request_of_refused refused']
      refine ⟨published_nothing rfl, rfl, rfl, rfl, ?_⟩
      exact forall₂_modify .refl (fun r => ⟨rfl, List.Subset.refl _⟩) e.tasks t
  | detach waiter =>
      refine ⟨published_nothing rfl, rfl, rfl, rfl, ?_⟩
      exact forall₂_modify .refl (fun r => ⟨rfl, List.filter_subset_self _⟩) e.tasks waiter.task
  | announce id event =>
      obtain ⟨inFlight, -⟩ := Bool.and_eq_true_iff.mp allowed
      rw [none id] at inFlight
      cases inFlight
  | progress id progress =>
      refine rests_of_tasks (published_nothing rfl) rfl ?_ rfl rfl
      show e.runs.map _ = e.runs
      rw [noRuns]
      rfl
  | finish id outcome =>
      rw [perform, finish, none id]
      exact .refl e
  | abandon id =>
      rw [perform, Engine.abandon, none id]
      exact .refl e
  | schedule t =>
      rw [perform, turnLoop_of_isIdle idle]
      exact .refl e
  | watch =>
      have watched : (e.watching && e.isCancelled e.runToken) = true := allowed
      rw [((isIdle_iff e).mp idle).2.1] at watched
      cases watched
  | remark note =>
      exact rests_of_tasks (published_note e (Note.forwarded?_of_isOfCallers allowed)
        (Note.published?_of_isOfCallers allowed)) rfl rfl rfl rfl
  | _ => cases other

/-! ## 3. Engines that have stopped -/

/-- What may happen to an engine that has stopped with nothing left to wait for. -/
inductive Aftermath (e : Engine) : Engine → Prop where
  | rests {e' : Engine} (h : Rests e e') : Aftermath e e'
  | receive : Aftermath e e.receive
  | work (i : Nat) : Aftermath e (e.workLane i)
  /-- A further shutdown that was under way comes to its end. -/
  | complete (s : Shutdown) : Aftermath e (e.complete s).1

theorem add_of_stopped (stopped : e.phase = .stopped) (spec : Spec) : (e.add spec).1 = e := by
  unfold add
  split
  · rfl
  · rw [initialStatus?, stopped]

theorem aftermath_turnShutdown (idle : e.isIdle = true) (s : Shutdown) :
    Aftermath e (e.turnShutdown s).1 := by
  cases stage : s.stage with
  | draining =>
      simp only [turnShutdown, stage, if_pos idle]
      exact .complete s
  | awaitingPump =>
      simp only [turnShutdown, stage]
      exact .rests (.refl e)
  | awaitingWorkers =>
      simp only [turnShutdown, stage]
      exact .rests (.refl e)

/-- After the stop, the lanes are fed and further shutdowns come to their end. -/
theorem perform_stopped {m : Move} (stopped : e.phase = .stopped) (idle : e.isIdle = true)
    (allowed : e.allows m = true) : Aftermath e (e.perform m) := by
  have closed : e.refusal? = some .closed := by rw [refusal?, stopped]
  cases m with
  | add spec =>
      rw [perform, add_of_stopped stopped]
      exact .rests (.refl e)
  | start token =>
      rw [perform, start, stopped]
      exact .rests (.refl e)
  | shutdown bound grace =>
      rw [perform, shutdown, stopped]
      exact .rests (.refl e)
  | awaitShutdown s => exact aftermath_turnShutdown idle s
  | receive => exact .receive
  | work i => exact .work i
  | _ => exact .rests (rests_perform idle closed allowed rfl)

/-! ## 4. How an engine comes to have stopped -/

/-- What was announced of the way of the engine, the newest first. -/
def heralds (e : Engine) : List EventKind := e.journal.filterMap (·.note.herald?)

/-- The two states agree on what decides about the way of the engine, which is its phase, its run
token, whether that is watched and which tokens were cancelled, and on what was announced of that
way. -/
structure Steady (e e' : Engine) : Prop where
  phase : e'.phase = e.phase
  runToken : e'.runToken = e.runToken
  watching : e'.watching = e.watching
  cancelled : e'.cancellation.cancelled = e.cancellation.cancelled
  heralds : e'.heralds = e.heralds

theorem Steady.refl (e : Engine) : Steady e e := ⟨rfl, rfl, rfl, rfl, rfl⟩

theorem Steady.trans {e'' : Engine} (first : Steady e e') (second : Steady e' e'') : Steady e e'' :=
  ⟨second.phase.trans first.phase, second.runToken.trans first.runToken,
    second.watching.trans first.watching, second.cancelled.trans first.cancelled,
    second.heralds.trans first.heralds⟩

theorem heralds_eq (e : Engine) :
    e.heralds = ((e.published.map (·.kind)).filter (·.isHerald)).reverse := by
  rw [heralds, published, List.map_reverse, List.filter_reverse, List.reverse_reverse]
  induction e.journal with
  | nil => rfl
  | cons entry journal ih =>
      obtain ⟨time, note⟩ := entry
      cases note with
      | published event task =>
          cases herald : event.kind.isHerald with
          | false =>
              rw [List.filterMap_cons_none (by simp [Note.herald?, herald]), ih]
              simp [Note.published?, herald]
          | true =>
              rw [List.filterMap_cons_some (b := event.kind) (by simp [Note.herald?, herald]), ih]
              simp [Note.published?, herald]
      | _ => exact ih

theorem heralds_of_reports (reports : Publishes (·.isReport = true) e e') :
    e'.heralds = e.heralds := by
  obtain ⟨events, published, kinds⟩ := reports
  have none : (events.map (·.kind)).filter (·.isHerald) = [] := by
    refine List.filter_eq_nil_iff.mpr fun kind mem => ?_
    obtain ⟨event, sent, rfl⟩ := List.mem_map.mp mem
    rcases EventKind.eq_of_isReport (kinds event sent) with report | report <;>
      simp [report, EventKind.isHerald]
  rw [heralds_eq, heralds_eq, published, List.map_append, List.filter_append, none, List.append_nil]

theorem Aside.steady (h : Aside e e') (reports : Publishes (·.isReport = true) e e') :
    Steady e e' :=
  ⟨h.phase, h.runToken, h.watching, by rw [h.cancellation], heralds_of_reports reports⟩

theorem steady_beginRun (e : Engine) (t : TaskId) (merged : Bool) (waiters : List WaiterId) :
    Steady e (e.beginRun t merged waiters) := by
  unfold beginRun
  split <;> exact ⟨rfl, rfl, rfl, rfl, rfl⟩

theorem steady_request (e : Engine) (t : TaskId) (waiter : Option WaiterId) :
    Steady e (e.request t waiter).1 := by
  have step := e.request_step t waiter
  generalize e.request t waiter = answer at step ⊢
  cases step with
  | refused err => exact ⟨rfl, rfl, rfl, rfl, rfl⟩
  | skipped task known full => exact ⟨rfl, rfl, rfl, rfl, rfl⟩
  | merged task known admits willing full overlap => exact ⟨rfl, rfl, rfl, rfl, rfl⟩
  | started task known admits willing room =>
      exact (steady_beginRun e t false _).trans ⟨rfl, rfl, rfl, rfl, rfl⟩

theorem steady_finish (e : Engine) (id : RunId) (outcome : Outcome) :
    Steady e (e.finish id outcome) := by
  have step := e.finish_step id outcome
  generalize e.finish id outcome = after at step ⊢
  cases step with
  | unknown => exact .refl e
  | last run task found known settled => exact ⟨rfl, rfl, rfl, rfl, rfl⟩
  | closed run task found known owed closing => exact ⟨rfl, rfl, rfl, rfl, rfl⟩
  | again run task found known owed admits =>
      have concluded : Steady e (e.conclude run task outcome) := ⟨rfl, rfl, rfl, rfl, rfl⟩
      exact concluded.trans (steady_beginRun ..)

theorem steady_armLoop (e : Engine) (t : TaskId) (task : TaskRecord) (base : Instant)
    (due? : Option Instant) : Steady e (e.armLoop t task base due?) := by
  cases due? <;> exact ⟨rfl, rfl, rfl, rfl, rfl⟩

theorem Stir.steady (stir : Stir e e') : Steady e e' := by
  cases stir with
  | announce event t scheduled =>
      refine ⟨rfl, rfl, rfl, rfl, List.filterMap_cons_none ?_⟩
      simp [Note.herald?, scheduled, EventKind.isHerald]
  | request t => exact steady_request e t none
  | _ => exact ⟨rfl, rfl, rfl, rfl, rfl⟩

theorem steady_turnLoop (e : Engine) (t : TaskId) : Steady e (e.turnLoop t) :=
  (stirs_turnLoop e t).relates .refl .trans Stir.steady

/-- Whether the move may change the phase. -/
def Move.movesPhase : Move → Bool
  | .start _ | .watch | .shutdown .. | .awaitShutdown _ => true
  | .clock _ | .add _ | .cancel _ | .request _ | .requestWaiting _ | .detach _ | .announce ..
  | .progress .. | .finish .. | .abandon _ | .schedule _ | .receive | .work _ | .remark _ => false

theorem steady_note (e : Engine) {n : Note} (silent : n.herald? = none) : Steady e (e.note n) :=
  ⟨rfl, rfl, rfl, rfl, List.filterMap_cons_none silent⟩

theorem herald?_of_isAboutRun {event : Event} (about : event.kind.isAboutRun = true)
    (task : Option TaskId) : (Note.published event task).herald? = none := by
  cases kind : event.kind <;> simp [Note.herald?, EventKind.isHerald, kind]
  all_goals
    rw [kind] at about
    cases about

theorem steady_perform {m : Move} (other : m.movesPhase = false) (cancels : ∀ t, m ≠ .cancel t)
    (allowed : e.allows m = true) : Steady e (e.perform m) := by
  cases m with
  | clock now => exact ⟨rfl, rfl, rfl, rfl, rfl⟩
  | add spec =>
      rw [perform, add]
      repeat' split
      all_goals exact ⟨rfl, rfl, rfl, rfl, rfl⟩
  | cancel token => exact absurd rfl (cancels token)
  | request t => exact steady_request e t none
  | requestWaiting t =>
      have drawn : Steady e (e.drawSerial t) := ⟨rfl, rfl, rfl, rfl, rfl⟩
      exact drawn.trans (steady_request _ t _)
  | detach waiter => exact ⟨rfl, rfl, rfl, rfl, rfl⟩
  | announce id event =>
      obtain ⟨-, about⟩ := Bool.and_eq_true_iff.mp allowed
      have pushed : Steady e { e with bus := e.bus.push event } := ⟨rfl, rfl, rfl, rfl, rfl⟩
      exact pushed.trans (steady_note _ (herald?_of_isAboutRun about _))
  | progress id progress => exact ⟨rfl, rfl, rfl, rfl, rfl⟩
  | finish id outcome => exact steady_finish e id outcome
  | abandon id =>
      rw [perform, Engine.abandon]
      split <;> exact ⟨rfl, rfl, rfl, rfl, rfl⟩
  | schedule t => exact steady_turnLoop e t
  | receive => exact (aside_receive e).steady (reports_receive e)
  | work i => exact (aside_workLane e i).steady (reports_workLane e i)
  | remark note =>
      refine steady_note e ?_
      cases note <;> first | rfl | cases allowed
  | _ => cases other

theorem phase_perform {m : Move} (other : m.movesPhase = false) (e : Engine) :
    (e.perform m).phase = e.phase := by
  cases m with
  | clock _ | cancel _ | announce _ _ | remark _ => rfl
  | abandon id =>
      rw [perform, Engine.abandon]
      split <;> rfl
  | watch => cases other
  | awaitShutdown _ => cases other
  | _ => exact (steady_perform other (by rintro _ ⟨⟩) rfl).phase

/-- A shutdown that has just found nothing left to wait for, in a state that differs from `e` by
ordinary events at most. -/
def Stops (e e' : Engine) : Prop :=
  ∃ (found : Engine) (events : List Event) (s : Shutdown), Published e found events ∧
    found.isIdle = true ∧ e' = (found.complete s).1

/-- What the success of a shutdown changes, if the lanes were fed before. -/
structure Completed (e e' : Engine) : Prop where
  phase : e'.phase = .stopped
  idle : e'.isIdle = e.isIdle
  dispatch : e'.dispatch = .idle
  bus : e'.bus = e.bus.push { kind := .allStoppedWithin }
  cursor : e'.cursor = e.cursor
  lanes : e'.lanes = e.lanes
  pump : e'.pump = e.pump
  forwarded : e'.forwarded = e.forwarded
  published : e'.published = e.published ++ [{ kind := .allStoppedWithin }]

theorem beginFlush_of_fed (s : Shutdown) (fed : e.dispatch ≠ .buffered) :
    (e.beginFlush s).1 = { e with dispatch := .idle } := by
  unfold beginFlush
  split
  · rename_i idle
    rw [← idle]
  · rfl
  · exact absurd ‹_› fed

theorem completed (s : Shutdown) (fed : e.dispatch ≠ .buffered) :
    Completed e (e.complete s).1 := by
  have idle : { e with phase := .stopped }.finalize.isIdle = e.isIdle := isIdle_finalize _
  have fed' : ({ e with phase := .stopped }.finalize.publish
      { kind := .allStoppedWithin }).dispatch ≠ .buffered := fed
  rw [complete, beginFlush_of_fed s fed']
  exact ⟨rfl, idle, rfl, rfl, rfl, rfl, rfl, rfl, published_of_announce _ _ none⟩

theorem stops_turnShutdown {events : List Event} (published : Published e e' events)
    (going : e'.phase ≠ .stopped) (s : Shutdown) (stopped : (e'.turnShutdown s).1.phase = .stopped) :
    Stops e (e'.turnShutdown s).1 := by
  cases stage : s.stage with
  | awaitingPump =>
      simp only [turnShutdown, stage] at stopped
      exact absurd stopped going
  | awaitingWorkers =>
      simp only [turnShutdown, stage] at stopped
      exact absurd stopped going
  | draining =>
      simp only [turnShutdown, stage] at stopped ⊢
      by_cases idle : e'.isIdle = true
      · rw [if_pos idle]
        exact ⟨e', events, s, published, idle, rfl⟩
      · rw [if_neg idle] at stopped
        split at stopped
        · exact absurd stopped going
        · exact absurd stopped going

theorem ne_of_started (started : e.phase = .running ∨ e.phase = .stopping) :
    e.phase ≠ .notStarted ∧ e.phase ≠ .stopped := by
  rcases started with running | stopping
  · rw [running]
    decide
  · rw [stopping]
    decide

/-- Nothing but such a shutdown makes a started engine one that has stopped. -/
theorem perform_stops {m : Move} (started : e.phase = .running ∨ e.phase = .stopping)
    (stopped : (e.perform m).phase = .stopped) : Stops e (e.perform m) := by
  have going := (ne_of_started started).2
  cases m with
  | start token =>
      rcases started with running | stopping
      · rw [perform, start, running] at stopped
        exact absurd stopped going
      · rw [perform, start, stopping] at stopped
        exact absurd stopped going
  | watch =>
      rcases started with running | stopping
      · simp only [perform, turnWatcher, running] at stopped
        cases stopped
      · simp only [perform, turnWatcher, stopping] at stopped
        cases stopped
  | shutdown bound grace =>
      rcases started with running | stopping
      · have closed : Published e e.beginStopping [] := published_nothing rfl
        have begun : Published e (e.beginStopping.publish { kind := .shutdownRequested }) _ :=
          closed.trans (published_announce _ none rfl)
        simp only [perform, shutdown, running] at stopped ⊢
        exact stops_turnShutdown begun (by rintro ⟨⟩) _ stopped
      · simp only [perform, shutdown, stopping] at stopped ⊢
        exact stops_turnShutdown (published_nothing rfl) going _ stopped
  | awaitShutdown s =>
      exact stops_turnShutdown (published_nothing rfl) going s stopped
  | _ => exact absurd ((phase_perform rfl e).symm.trans stopped) going

/-- Nothing but a new shutdown makes an engine that was never started one that has stopped. -/
theorem shutdown_of_stops {m : Move} (fresh : e.phase = .notStarted) (allowed : e.allows m = true)
    (stopped : (e.perform m).phase = .stopped) : ∃ bound grace, m = .shutdown bound grace := by
  have waits (same : (e.perform m).phase = e.phase) : False := by
    rw [same, fresh] at stopped
    cases stopped
  cases m with
  | start token =>
      have running : (e.perform (.start token)).phase = .running := by
        simp only [perform, start, fresh]
        exact (aside_startPump _).phase
      rw [running] at stopped
      cases stopped
  | watch =>
      refine (waits ?_).elim
      simp only [perform, turnWatcher, fresh]
  | shutdown bound grace => exact ⟨bound, grace, rfl⟩
  | awaitShutdown s => simp [allows, fresh] at allowed
  | _ => exact (waits (phase_perform rfl e)).elim

end Engine

end TaskEngine
