/-
  TaskEngine/Proofs/Stillness.lean
  ================================
  **Stopped means that nothing is left.**

  A shutdown waits for the runs, the schedules and the watcher of the run token, not for the numbers
  that the tasks keep.  That the numbers agree with what is left rests on two invariants: every place
  that is taken belongs to a run in flight or to a lost one (`Audited.running_eq`), and before its
  start an engine has nothing to wait for, so that it may be stopped without waiting (`Still`).

  After the stop nothing gets going again, whatever further calls are made, and nothing that tells of
  runs or ticks is published (`EndsLast`).
-/
import TaskEngine.Proofs.Losses
import TaskEngine.Proofs.Polls
import TaskEngine.Proofs.Publishing

namespace TaskEngine

/-- Whether events of this kind tell of a run or a tick. -/
def EventKind.isActivity (k : EventKind) : Bool := k.isAboutRun || k == .tickScheduled

/-- Nothing is owed, nobody waits and no tick is due any more. -/
structure TaskRecord.Done (task : TaskRecord) : Prop where
  status : task.status = .stopped
  pending : task.pending = false
  parked : task.parked = []
  nextRun : task.nextRun = none

theorem TaskRecord.Done.rests {old new : TaskRecord} (h : old.Done) (rests : old.Rests new) :
    new.Done := by
  have same := rests.same
  refine ⟨?_, ?_, ?_, ?_⟩
  · rw [same]
    exact h.status
  · rw [same]
    exact h.pending
  · have fewer := rests.parked
    rw [h.parked] at fewer
    exact List.eq_nil_of_subset_nil fewer
  · rw [same]
    exact h.nextRun

namespace Engine

variable {e e' : Engine} {t : TaskId}

/-! ## 1. Before the start and after the stop -/

/-- An engine that has stopped, with nothing left. -/
structure Settled (e : Engine) : Prop where
  stopped : e.phase = .stopped
  idle : e.isIdle = true
  taken : e.dispatch = .idle
  done : ∀ task ∈ e.tasks, task.Done

/-- What is left to wait for before a start is nothing, and after a stop nothing is left at all. -/
structure Still (e : Engine) : Prop where
  fresh : e.phase = .notStarted → e.isIdle = true
  settled : e.phase = .stopped → e.Settled

theorem still_create (config : Config) (subscribers : List Subscriber) :
    (create config subscribers).Still :=
  ⟨fun _ => rfl, fun stopped => nomatch stopped⟩

theorem still_of_running (running : e.phase = .running) : e.Still :=
  ⟨fun fresh => by simp [running] at fresh, fun stopped => by simp [running] at stopped⟩

theorem Settled.still (h : e.Settled) : e.Still :=
  ⟨fun fresh => by simp [h.stopped] at fresh, fun _ => h⟩

theorem Aside.isIdle (h : Aside e e') : e'.isIdle = e.isIdle :=
  isIdle_congr h.runs h.watching (by rw [h.tasks])

theorem dispatch_beginFlush (e : Engine) (s : Shutdown) : (e.beginFlush s).1.dispatch = .idle := by
  unfold beginFlush
  split
  · assumption
  · rfl
  · exact dispatch_forwardAll { e with dispatch := .idle }

theorem dispatch_receive (e : Engine) : e.receive.dispatch = e.dispatch := by
  have waits (e : Engine) : e.awaitWorkers.dispatch = e.dispatch := by
    unfold awaitWorkers
    split <;> rfl
  have step := e.receive_step
  generalize e.receive = after at step ⊢
  cases step with
  | nothing idle => rfl
  | passes event cursor receiving next goesOn => rw [emit_eq]
  | ends event cursor receiving next last => rw [waits, closeLanes, emit_eq]
  | awaits closing => exact waits e

theorem done_of_finalize (e : Engine) : ∀ task ∈ e.finalize.tasks, task.Done := by
  intro task mem
  obtain ⟨old, -, rfl⟩ := List.mem_map.mp mem
  exact ⟨rfl, rfl, rfl, rfl⟩

/-- Whoever finds nothing left to wait for, and flushes then, leaves nothing behind. -/
theorem settled_beginFlush (s : Shutdown) (stopped : e.phase = .stopped) (idle : e.isIdle = true)
    (done : ∀ task ∈ e.tasks, task.Done) : (e.beginFlush s).1.Settled := by
  have aside := aside_beginFlush e s
  refine ⟨aside.phase.trans stopped, aside.isIdle.trans idle, dispatch_beginFlush e s, ?_⟩
  rw [aside.tasks]
  exact done

theorem settled_complete (s : Shutdown) (idle : e.isIdle = true) : (e.complete s).1.Settled :=
  settled_beginFlush s rfl ((isIdle_finalize _).trans idle)
    (done_of_finalize { e with phase := .stopped })

/-- A shutdown of an engine that was never started. -/
theorem settled_shutdown (fresh : e.phase = .notStarted) (idle : e.isIdle = true) (bound : Bound)
    (grace : Duration) : (e.shutdown bound grace).1.Settled := by
  simp only [shutdown, fresh]
  exact settled_beginFlush _ rfl ((isIdle_finalize _).trans idle)
    (done_of_finalize { e with phase := .stopped })

theorem Settled.aftermath (h : e.Settled) (step : Aftermath e e') : e'.Settled := by
  have fed {e' : Engine} (aside : Aside e e') (dispatch : e'.dispatch = e.dispatch) :
      e'.Settled := by
    refine ⟨aside.phase.trans h.stopped, aside.isIdle.trans h.idle, dispatch.trans h.taken, ?_⟩
    rw [aside.tasks]
    exact h.done
  cases step with
  | rests rests =>
      refine ⟨rests.phase.trans h.stopped, rests.isIdle.trans h.idle,
        rests.published.dispatch.trans h.taken, ?_⟩
      intro new mem
      obtain ⟨t, found⟩ := List.mem_iff_getElem?.mp mem
      obtain ⟨old, known, same⟩ := forall₂_getElem? rests.tasks found
      exact (h.done old (List.mem_of_getElem? known)).rests same
  | receive => exact fed (aside_receive e) (dispatch_receive e)
  | work i => exact fed (aside_workLane e i) (by rw [workLane_eq])
  | complete s => exact settled_complete s h.idle

theorem isIdle_add (fresh : e.phase = .notStarted) (spec : Spec) :
    (e.add spec).1.isIdle = e.isIdle := by
  unfold add
  split
  · rfl
  · split
    · rfl
    · split
      · rfl
      · rename_i resolved _ _ status _ _
        have record : (e.newRecord resolved status).loop = .absent := by rw [newRecord, fresh]
        have alive : ((e.tasks ++ [e.newRecord resolved status]).all fun t => !t.loop.isAlive) =
            e.tasks.all fun t => !t.loop.isAlive := by
          rw [List.all_append]
          simp [record, Loop.isAlive]
        exact congrArg (e.runs.isEmpty && !e.watching && ·) alive

/-- A phase that has passed does not come back. -/
theorem Feeds.phase (feeds : Feeds e e') :
    (e'.phase = .notStarted → e.phase = .notStarted) ∧ (e.phase = .stopped → e'.phase = .stopped) := by
  have same {e' : Engine} (phase : e'.phase = e.phase) :
      (e'.phase = .notStarted → e.phase = .notStarted) ∧
        (e.phase = .stopped → e'.phase = .stopped) := by
    rw [phase]
    exact ⟨id, id⟩
  cases feeds with
  | publishes published phase =>
      rcases phase with phase | ⟨running, stopping⟩ | stopped
      · exact same phase
      · simp [running, stopping]
      · simp [stopped]
  | start token fresh => simp [fresh]
  | announceEnd stopped => exact same rfl
  | beginFlush s stopped => exact same (aside_beginFlush e s).phase
  | receive => exact same (phase_receive e)
  | work i => exact same (aside_workLane e i).phase

/-- An engine that was not started is started, stopped, or left with nothing to wait for. -/
theorem still_of_notStarted {m : Move} (fresh : e.phase = .notStarted) (idle : e.isIdle = true)
    (allowed : e.allows m = true) : (e.perform m).Still := by
  have waits {e' : Engine} (phase : e'.phase = e.phase) (same : e'.isIdle = e.isIdle) : e'.Still :=
    ⟨fun _ => same.trans idle, fun stopped => by simp [phase, fresh] at stopped⟩
  have refused : e.refusal? = some .notRunning := by rw [refusal?, fresh]
  cases m with
  | add spec => exact waits (phase_perform rfl e) (isIdle_add fresh spec)
  | start token =>
      apply still_of_running
      simp only [perform, start, fresh]
      exact (aside_startPump _).phase
  | shutdown bound grace => exact (settled_shutdown fresh idle bound grace).still
  | awaitShutdown s => simp [allows, fresh] at allowed
  | receive => exact waits (phase_receive e) (aside_receive e).isIdle
  | work i => exact waits (aside_workLane e i).phase (aside_workLane e i).isIdle
  | _ =>
      have rests := rests_perform idle refused allowed rfl
      exact waits rests.phase rests.isIdle

theorem Still.perform {m : Move} (allowed : e.allows m = true) (h : e.Still) :
    (e.perform m).Still := by
  have started (phase : e.phase ≠ .notStarted) : (e.perform m).phase ≠ .notStarted :=
    feeds_perform (P := (·.phase ≠ .notStarted))
      (fun _ _ phase feeds fresh => phase (feeds.phase.1 fresh)) allowed phase
  have going (phase : e.phase = .running ∨ e.phase = .stopping) : (e.perform m).Still := by
    refine ⟨fun fresh => absurd fresh (started (ne_of_started phase).1), fun stopped => ?_⟩
    obtain ⟨found, events, s, -, idle, is⟩ := perform_stops phase stopped
    rw [is]
    exact settled_complete s idle
  cases phase : e.phase with
  | notStarted => exact still_of_notStarted phase (h.fresh phase) allowed
  | running => exact going (.inl phase)
  | stopping => exact going (.inr phase)
  | stopped =>
      have settled := h.settled phase
      exact (settled.aftermath (perform_stopped phase settled.idle allowed)).still

theorem still_after {config : Config} {subscribers : List Subscriber} {moves : List Move}
    (admitted : (create config subscribers).admits moves = true) :
    ((create config subscribers).after moves).Still :=
  invariant_after (fun _ _ => Still.perform) admitted (still_create config subscribers)

/-! ## 2. Nothing is told of runs once the end was announced -/

/-- The end is announced by an engine that has stopped. -/
theorem Feeds.marks (feeds : Feeds e e') :
    Publishes (fun k => k = .allStoppedWithin → e.phase = .stopped) e e' := by
  have report (k : EventKind) (h : k.isReport = true) :
      k = .allStoppedWithin → e.phase = .stopped := by
    rcases EventKind.eq_of_isReport h with rfl | rfl <;> exact nofun
  cases feeds with
  | publishes published phase =>
      refine published.publishes fun event mem marker => ?_
      exact absurd marker (published.kind_ne rfl event mem)
  | start token fresh =>
      refine publishes_nothing ?_
      unfold entered startPump
      split <;> rfl
  | announceEnd stopped => exact publishes_announce e _ none fun _ => stopped
  | beginFlush s stopped => exact (reports_beginFlush e s).mono report
  | receive => exact (reports_receive e).mono report
  | work i => exact (reports_workLane e i).mono report

theorem publishes_complete (e : Engine) (s : Shutdown) :
    Publishes (fun k => k = .allStoppedWithin ∨ k.isReport = true) e (e.complete s).1 := by
  have marked : Publishes (fun k => k = .allStoppedWithin ∨ k.isReport = true)
      { e with phase := .stopped }.finalize
      ({ e with phase := .stopped }.finalize.publish { kind := .allStoppedWithin }) :=
    publishes_announce _ _ none (.inl rfl)
  exact marked.trans ((reports_beginFlush _ s).mono fun _ => .inr)

theorem Aftermath.publishes (step : Aftermath e e') :
    Publishes (fun k => k = .allStoppedWithin ∨ k.isReport = true) e e' := by
  cases step with
  | rests rests => exact rests.published.publishes fun _ mem => absurd mem List.not_mem_nil
  | receive => exact (reports_receive e).mono fun _ => .inr
  | work i => exact (reports_workLane e i).mono fun _ => .inr
  | complete s => exact publishes_complete e s

def HasEnded (e : Engine) : Prop := ∃ event ∈ e.published, event.kind = .allStoppedWithin

theorem Feeds.hasEnded (feeds : Feeds e e') (ended : e.HasEnded → e.phase = .stopped) :
    e'.HasEnded → e'.phase = .stopped := by
  rintro ⟨event, mem, marker⟩
  rcases feeds.marks.kind_of_mem mem with mem | kind
  · exact feeds.phase.2 (ended ⟨event, mem, marker⟩)
  · exact feeds.phase.2 (kind marker)

/-- The end is announced only by an engine that has stopped, and after all that tells of runs. -/
structure EndsLast (e : Engine) : Prop where
  ended : e.HasEnded → e.phase = .stopped
  order : Precedes (·.isActivity = true) .allStoppedWithin e

theorem endsLast_create (config : Config) (subscribers : List Subscriber) :
    (create config subscribers).EndsLast :=
  ⟨fun ⟨_, mem, _⟩ => absurd mem List.not_mem_nil, precedes_create ..⟩

theorem precedes_of_not_hasEnded {q : EventKind → Prop} (going : ¬e.HasEnded) :
    Precedes q .allStoppedWithin e :=
  precedes_of_absent fun event mem marker => going ⟨event, mem, marker⟩

theorem Precedes.isActivity
    (new : Publishes (fun k => k = .allStoppedWithin ∨ k.isReport = true) e e')
    (h : Precedes (·.isActivity = true) .allStoppedWithin e) :
    Precedes (·.isActivity = true) .allStoppedWithin e' := by
  refine h.publishes new fun _ k kind => ?_
  rcases kind with rfl | report
  · decide
  · rcases EventKind.eq_of_isReport report with rfl | rfl <;> decide

theorem EndsLast.perform {m : Move} (allowed : e.allows m = true) (still : e.Still)
    (h : e.EndsLast) : (e.perform m).EndsLast := by
  have ended : (e.perform m).HasEnded → (e.perform m).phase = .stopped :=
    feeds_perform (P := fun e => e.HasEnded → e.phase = .stopped)
      (fun _ _ ended feeds => feeds.hasEnded ended) allowed h.ended
  refine ⟨ended, ?_⟩
  by_cases stopped : (e.perform m).phase = .stopped
  · have begun (started : e.phase = .running ∨ e.phase = .stopping) :
        Precedes (·.isActivity = true) .allStoppedWithin (e.perform m) := by
      obtain ⟨found, events, s, published, idle, is⟩ := perform_stops started stopped
      rw [is]
      apply Precedes.isActivity (publishes_complete found s)
      apply precedes_of_not_hasEnded
      rintro ⟨event, mem, marker⟩
      rw [published.published] at mem
      rcases List.mem_append.mp mem with mem | mem
      · exact (ne_of_started started).2 (h.ended ⟨event, mem, marker⟩)
      · exact published.kind_ne rfl event mem marker
    cases phase : e.phase with
    | notStarted =>
        obtain ⟨bound, grace, rfl⟩ := shutdown_of_stops phase allowed stopped
        have reports : Publishes (·.isReport = true) e (e.perform (.shutdown bound grace)) := by
          simp only [Engine.perform, shutdown, phase]
          exact reports_beginFlush { e with phase := .stopped }.finalize _
        exact Precedes.isActivity (reports.mono fun _ => .inr) h.order
    | running => exact begun (.inl phase)
    | stopping => exact begun (.inr phase)
    | stopped =>
        have step := perform_stopped phase (still.settled phase).idle allowed
        exact Precedes.isActivity step.publishes h.order
  · exact precedes_of_not_hasEnded fun marked => stopped (ended marked)

/-! ## 3. All histories -/

/-- **Stopped means that nothing is left, but the places of lost runs.**  From the moment on at which an
engine has stopped, and whatever happens afterwards: every task has stopped, owes no run, has nobody
parked and no tick before it; no run is in flight, the watcher is gone and no schedule is alive;
nothing that tells of a run or a tick was published after the end was announced; and further starts
and shutdowns leave it at that, the former refused as closed, the latter with success.  The places
that are taken are those of the runs that began and never ended, and these are runs whose calls the
work refused. -/
theorem nothing_left_once_stopped (config : Config) (subscribers : List Subscriber)
    (before later : List Move)
    (admitted : (create config subscribers).admits (before ++ later) = true)
    (stopped : ((create config subscribers).after before).phase = .stopped) :
    let e := (create config subscribers).after (before ++ later)
    e.phase = .stopped ∧
    (∀ t task, e.tasks[t]? = some task → task.status = .stopped ∧ task.pending = false ∧
      task.parked = [] ∧ task.nextRun = none ∧ task.running = e.lost.countP (·.task == t)) ∧
    (∀ id ∈ e.lost, ∃ task, e.tasks[id.task]? = some task ∧
      task.spec.work.refuses id.number = true) ∧
    e.runs = [] ∧ e.watching = false ∧ (∀ task ∈ e.tasks, task.loop.isAlive = false) ∧
    (e.published.Pairwise fun first later =>
      first.kind = .allStoppedWithin → later.kind.isActivity = false) ∧
    (∀ token, e.start token = (e, .error .closed)) ∧
    (∀ bound grace, e.shutdown bound grace = (e, .error (.ok ()))) ∧
    ∀ s, (e.turnShutdown s).2 = .error (.ok ()) ∨
      s.stage ≠ .draining ∧ (e.turnShutdown s).2 = .ok s := by
  intro e
  obtain ⟨first, rest⟩ := (admits_append ..).mp admitted
  have still : e.Still := still_after admitted
  have phase : e.phase = .stopped := by
    have reached := feeds_after (P := (·.phase = .stopped))
      (fun _ _ stopped feeds => feeds.phase.2 stopped) rest stopped
    rwa [← after_append] at reached
  have settled := still.settled phase
  obtain ⟨noRuns, unwatched, dead⟩ := (isIdle_iff e).mp settled.idle
  have audited : e.Audited := audited_after config subscribers admitted
  have ends : e.Still ∧ e.EndsLast := by
    refine invariant_after (P := fun e => e.Still ∧ e.EndsLast) ?_ admitted
      ⟨still_create .., endsLast_create ..⟩
    rintro e m allowed ⟨still, ends⟩
    exact ⟨still.perform allowed, ends.perform allowed still⟩
  refine ⟨phase, ?_, audited.charted.lost.2, noRuns, unwatched, dead, ?_, ?_, ?_, ?_⟩
  · intro t task known
    obtain ⟨status, pending, parked, nextRun⟩ := settled.done task (List.mem_of_getElem? known)
    have nobody : e.inFlight t = 0 := by rw [inFlight, noRuns]; rfl
    have taken := audited.running_eq known
    rw [nobody, Nat.zero_add] at taken
    exact ⟨status, pending, parked, nextRun, taken⟩
  · exact ends.2.order.imp fun before marked => Bool.eq_false_iff.mpr (before marked)
  · intro token
    rw [start, phase]
  · intro bound grace
    rw [shutdown, phase]
  · intro s
    by_cases draining : s.stage = .draining
    · left
      have taken : ({ e with phase := .stopped }.finalize.publish
          { kind := .allStoppedWithin }).dispatch = .idle := settled.taken
      simp only [turnShutdown, draining, settled.idle, if_true, complete, beginFlush, taken]
    · rw [turnShutdown_of_flushing draining]
      exact (e.turnFlush_cases s).imp_right fun waits => ⟨draining, waits⟩

/-- Two callers, of which the second is folded into the owed run, a shutdown, and a further start. -/
theorem nothing_left_once_stopped_folded :
    (create {} []).admits (stoppedHistory ++ [.start (.named "t")]) = true ∧
    ((create {} []).after stoppedHistory).phase = .stopped ∧
    ∀ (t : TaskId) (task : TaskRecord),
      ((create {} []).after (stoppedHistory ++ [.start (.named "t")])).tasks[t]? = some task →
      task.running = 0 := by
  have admitted : (create {} []).admits (stoppedHistory ++ [.start (.named "t")]) = true := by decide
  have stopped : ((create {} []).after stoppedHistory).phase = .stopped := rfl
  obtain ⟨-, tasks, -⟩ :=
    nothing_left_once_stopped {} [] stoppedHistory [.start (.named "t")] admitted stopped
  refine ⟨admitted, stopped, fun t task known => ?_⟩
  obtain ⟨-, -, -, -, taken⟩ := tasks t task known
  have none : ((create {} []).after (stoppedHistory ++ [.start (.named "t")])).lost = [] := by decide
  rw [taken, none]
  rfl

/-- A run whose work refuses to be called is lost before a shutdown. -/
def abandonedHistory : List Move :=
  [.add (.onDemand (.refusesCall "no")), .start (.named "t"), .request 0, .abandon ⟨0, 1⟩,
    .shutdown (.token (.named "never")) .zero, .watch,
    .awaitShutdown { bound := .token (.named "never"), grace := .zero }]

/-- The engine has stopped with a place taken, and no run is left that could give it back. -/
theorem abandoned_place_left_once_stopped :
    (create {} []).admits abandonedHistory = true ∧
    ((create {} []).after abandonedHistory).phase = .stopped ∧
    ((create {} []).after abandonedHistory).runs = [] ∧
    ((create {} []).after abandonedHistory).tasks.map (fun task => (task.status, task.running)) =
      [(.stopped, 1)] := by
  decide

end Engine

end TaskEngine
