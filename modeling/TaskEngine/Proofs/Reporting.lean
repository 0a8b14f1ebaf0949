/-
  TaskEngine/Proofs/Reporting.lean
  ================================
  **Events, handler and counters tell the same about every run.**

  How a run ended is told in several places: an event announces it, the handler hears of failures,
  and the record of the task counts it.  Which is told what is decided in different places, from an
  outcome that depends on whether the task reports cancellations.  They agree, run by run
  (`Engine.Concordant`): everything but the end of a run is silent about outcomes, and the end of a
  run tells all of them in one turn.  The numbers follow (`Engine.Balanced`).
-/
import TaskEngine.Proofs.Tallies
import TaskEngine.Proofs.Worlds

namespace TaskEngine

/-! ## 1. What is told about the ends of runs -/

namespace Callback

def isOnError : Callback → Bool
  | .onError _ => true
  | _ => false

def isOnPanic : Callback → Bool
  | .onPanic _ => true
  | _ => false

theorem isOfHandler_of_isOnError {callback : Callback} (h : callback.isOnError = true) :
    callback.isOfHandler = true := by
  cases callback <;> first | rfl | cases h

theorem isOfHandler_of_isOnPanic {callback : Callback} (h : callback.isOnPanic = true) :
    callback.isOfHandler = true := by
  cases callback <;> first | rfl | cases h

end Callback

namespace Note

/-- The event that announces the end of a run: the task that it is about, the number of the run and
the kind of the event. -/
def announced? : Note → Option (Option TaskId × Option Nat × EventKind)
  | .published event task =>
      if event.kind.isRunFinished then some (task, event.run, event.kind) else none
  | _ => none

/-- The call of the handler for a failure. -/
def handled? : Note → Option (RunId × Callback)
  | .called callback run => if callback.isOfHandler then some (run, callback) else none
  | _ => none

/-- Whether an event of the kind is published about task `t`. -/
def publishes (kind : EventKind) (t : TaskId) : Note → Bool
  | .published event task => event.kind == kind && task == some t
  | _ => false

/-- Whether such code is called for a run of task `t`. -/
def calls (which : Callback → Bool) (t : TaskId) : Note → Bool
  | .called callback run => which callback && run.task == t
  | _ => false

theorem publishes_eq {kind : EventKind} (ends : kind.isRunFinished = true) (t : TaskId) (n : Note) :
    n.publishes kind t =
      (n.announced?.map fun told => told.2.2 == kind && told.1 == some t).getD false := by
  cases n with
  | published event task =>
      rw [announced?]
      split
      · rfl
      · rename_i goesOn
        have other : (event.kind == kind) = false := by
          refine beq_false_of_ne ?_
          rintro rfl
          exact goesOn ends
        rw [publishes, other]
        rfl
  | _ => rfl

theorem calls_eq {which : Callback → Bool}
    (handler : ∀ callback, which callback = true → callback.isOfHandler = true) (t : TaskId)
    (n : Note) :
    n.calls which t = (n.handled?.map fun call => which call.2 && call.1.task == t).getD false := by
  cases n with
  | called callback run =>
      rw [handled?]
      split
      · rfl
      · rename_i other
        rw [calls, Bool.eq_false_iff.mpr fun among => other (handler callback among)]
        rfl
  | _ => rfl

variable {n : Note}

theorem announced?_of_isRoutine (h : n.isRoutine = true) : n.announced? = none := by
  cases n with
  | published event task => exact if_neg (by simpa [isRoutine] using h)
  | _ => rfl

theorem handled?_of_isRoutine (h : n.isRoutine = true) : n.handled? = none := by
  cases n with
  | called callback run => exact if_neg (by simpa [isRoutine] using h)
  | _ => rfl

theorem finish?_of_isRoutine (h : n.isRoutine = true) : n.finish? = none := by
  cases n <;> first | rfl | cases h

end Note

namespace Outcome

variable {reports : Bool} {outcomes : List Outcome}

theorem isOfHandler_callback? {outcome : Outcome} {callback : Callback}
    (fails : outcome.callback? = some callback) : callback.isOfHandler = true := by
  cases outcome <;> cases fails <;> rfl

theorem eq_failed_of_callback? {outcome : Outcome} {err : WorkError}
    (fails : outcome.callback? = some (.onError err)) : outcome = .failed err := by
  cases outcome <;> cases fails
  rfl

theorem any_isOnError_callback? (outcome : Outcome) :
    outcome.callback?.any (·.isOnError) = (outcome.event == .runFailed) := by
  cases outcome <;> rfl

theorem any_isOnPanic_callback? (outcome : Outcome) :
    outcome.callback?.any (·.isOnPanic) = (outcome.event == .runPanicked) := by
  cases outcome <;> rfl

/-- Cancellations are outcomes of their own for a task that does not report them, and only there. -/
theorem countP_canceled (fits : ∀ outcome ∈ outcomes, outcome.fits reports = true) :
    outcomes.countP (·.event == .runCanceled) =
      if reports then 0 else outcomes.countP (·.isCancellation) := by
  cases reports with
  | true =>
      refine List.countP_eq_zero.mpr fun outcome mem => ?_
      have fits := fits outcome mem
      cases outcome <;> simp_all [Outcome.fits, event]
  | false =>
      refine List.countP_congr fun outcome mem => ?_
      have fits := fits outcome mem
      cases outcome <;> simp_all [Outcome.fits, event, isCancellation]

/-- A task that reports cancellations counts them as failures. -/
theorem countP_isCancellation_le (fits : ∀ outcome ∈ outcomes, outcome.fits true = true) :
    outcomes.countP (·.isCancellation) ≤ outcomes.countP (·.event == .runFailed) := by
  refine List.countP_mono_left fun outcome mem cancelled => ?_
  have fits := fits outcome mem
  cases outcome <;> simp_all [Outcome.fits, event, isCancellation]

end Outcome

/-- How many runs of the task were cancelled without that being reported. -/
def TaskRecord.filteredCount (task : TaskRecord) : Nat :=
  if task.spec.reportCancellations then 0 else task.canceledCount

namespace Engine

variable {e e' : Engine}

/-! ## 2. Every end is told everywhere -/

/-- The announced ends of runs, the newest first. -/
def announcedEnds (e : Engine) : List (Option TaskId × Option Nat × EventKind) :=
  e.journal.filterMap (·.note.announced?)

/-- The calls of the handler, the newest first. -/
def handled (e : Engine) : List (RunId × Callback) := e.journal.filterMap (·.note.handled?)

/-- In between nothing was told about the ends of runs. -/
structure Silent (e e' : Engine) : Prop where
  announced : e'.announcedEnds = e.announcedEnds
  handled : e'.handled = e.handled
  finishes : e'.finishes = e.finishes

theorem silent_of_routine (h : Routine e e') : Silent e e' :=
  ⟨filterMap_of_notes (h.mono fun _ => Note.announced?_of_isRoutine),
    filterMap_of_notes (h.mono fun _ => Note.handled?_of_isRoutine),
    filterMap_of_notes (h.mono fun _ => Note.finish?_of_isRoutine)⟩

/-- Every end of a run, and nothing else, has been announced as what it was, and reported to the
handler if it was a failure; and a cancellation counts as a failure exactly if the task reports
it. -/
structure Concordant (e : Engine) : Prop where
  announced : e.announcedEnds =
    e.finishes.map fun ended => (some ended.1.task, some ended.1.number, ended.2.event)
  handled : e.handled = e.finishes.filterMap fun ended => ended.2.callback?.map (ended.1, ·)
  fits : ∀ ended ∈ e.finishes, ∃ task, e.tasks[ended.1.task]? = some task ∧
    ended.2.fits task.spec.reportCancellations = true

theorem concordant_create (config : Config) (subscribers : List Subscriber) :
    (create config subscribers).Concordant :=
  ⟨rfl, rfl, fun _ mem => absurd mem List.not_mem_nil⟩

theorem fits_of_grows (grows : Grows e e') {ended : RunId × Outcome}
    (fits : ∃ task, e.tasks[ended.1.task]? = some task ∧
      ended.2.fits task.spec.reportCancellations = true) :
    ∃ task, e'.tasks[ended.1.task]? = some task ∧
      ended.2.fits task.spec.reportCancellations = true := by
  obtain ⟨task, known, fits⟩ := fits
  obtain ⟨new, known, later⟩ := grows _ task known
  exact ⟨new, known, later.spec ▸ fits⟩

/-- Routine is silent about outcomes. -/
theorem Concordant.routine (h : e.Concordant) (routine : e.LeadsRoutinely e') : e'.Concordant := by
  obtain ⟨announced, handled, finishes⟩ := silent_of_routine routine.routine
  refine ⟨by rw [announced, h.announced, finishes], by rw [handled, h.handled, finishes], ?_⟩
  intro ended mem
  exact fits_of_grows routine.leads.grows (h.fits ended (finishes ▸ mem))

/-- In between one run came to its end, and that was told everywhere. -/
structure Tells (id : RunId) (outcome : Outcome) (e e' : Engine) : Prop where
  announced : e'.announcedEnds = (some id.task, some id.number, outcome.event) :: e.announcedEnds
  handled : e'.handled = (outcome.callback?.map (id, ·)).toList ++ e.handled
  finishes : e'.finishes = (id, outcome) :: e.finishes

theorem Concordant.tells (h : e.Concordant) {id : RunId} {outcome : Outcome}
    (tells : Tells id outcome e e') (grows : Grows e e')
    (fits : ∃ task, e.tasks[id.task]? = some task ∧
      outcome.fits task.spec.reportCancellations = true) : e'.Concordant := by
  obtain ⟨announced, handled, finishes⟩ := tells
  constructor
  · rw [announced, h.announced, finishes, List.map_cons]
  · rw [handled, h.handled, finishes, List.filterMap_cons]
    cases outcome.callback? <;> rfl
  · intro ended mem
    rw [finishes] at mem
    rcases List.mem_cons.mp mem with rfl | mem
    · exact fits_of_grows grows fits
    · exact fits_of_grows grows (h.fits ended mem)

/-- The end of a run is noted, once. -/
theorem finishes_finish {id : RunId} {run : Run} {task : TaskRecord} (found : e.run? id = some run)
    (known : e.tasks[id.task]? = some task) (outcome : Outcome) :
    (e.finish id outcome).finishes = (id, outcome) :: e.finishes := by
  obtain rfl : run.id = id := (mem_of_run? found).2
  have settled (told : Engine) (closing : Bool) : Notes (·.finish? = none) told
      (told.settleOwed run.id.task closing task.parked) := by
    unfold settleOwed
    split
    · exact notes_nothing rfl
    · exact notes_beginRun _ _ _ _ fun _ => rfl
  simp only [finish, found, known]
  split
  · exact filterMap_of_notes (settled _ _)
  · rfl

theorem terminalEvent_kind (task : String) (number : Nat) (outcome : Outcome) (elapsed : Duration) :
    (terminalEvent task number outcome elapsed).kind = outcome.event := by
  cases outcome <;> rfl

theorem terminalEvent_run (task : String) (number : Nat) (outcome : Outcome) (elapsed : Duration) :
    (terminalEvent task number outcome elapsed).run = some number := by
  cases outcome <;> rfl

/-- A run that announces its end and is finished then. -/
theorem announcedEnds_finish {id : RunId} {event : Event} {outcome : Outcome}
    (kind : event.kind = outcome.event) (numbered : event.run = some id.number) :
    ((e.publishAbout id.task event).finish id outcome).announcedEnds =
      (some id.task, some id.number, outcome.event) :: e.announcedEnds := by
  have ends : event.kind.isRunFinished = true := by
    rw [kind]
    cases outcome <;> rfl
  have announced : (Note.published event (some id.task)).announced? =
      some (some id.task, some id.number, outcome.event) := by
    rw [Note.announced?, if_pos ends, numbered, kind]
  have finished : Notes (·.announced? = none) (e.publishAbout id.task event)
    ((e.publishAbout id.task event).finish id outcome) := notes_finish _ rfl fun _ => rfl
  exact (filterMap_of_notes finished).trans (List.filterMap_cons_some announced)

/-! ## 3. What is told about one task -/

/-- How often events of the kind were published about task `t`. -/
def publications (e : Engine) (kind : EventKind) (t : TaskId) : Nat :=
  e.journal.countP (·.note.publishes kind t)

/-- How often such code was called for runs of task `t`. -/
def calls (e : Engine) (which : Callback → Bool) (t : TaskId) : Nat :=
  e.journal.countP (·.note.calls which t)

theorem countP_outcomes (e : Engine) (t : TaskId) (c : Outcome → Bool) :
    (e.outcomes t).countP c = e.finishes.countP fun ended => c ended.2 && ended.1.task == t := by
  rw [outcomes, List.countP_map, List.countP_filter]
  rfl

theorem Concordant.publications (h : e.Concordant) {kind : EventKind}
    (ends : kind.isRunFinished = true) (t : TaskId) :
    e.publications kind t = (e.outcomes t).countP (·.event == kind) := by
  have read : e.publications kind t =
      e.announcedEnds.countP fun told => told.2.2 == kind && told.1 == some t := by
    rw [announcedEnds, List.countP_filterMap]
    exact List.countP_congr fun entry _ => by rw [Note.publishes_eq ends]
  rw [read, h.announced, List.countP_map, countP_outcomes]
  rfl

theorem Concordant.calls (h : e.Concordant) {which : Callback → Bool}
    (handler : ∀ callback, which callback = true → callback.isOfHandler = true) (t : TaskId) :
    e.calls which t = (e.outcomes t).countP (·.callback?.any which) := by
  have read : e.calls which t =
      e.handled.countP fun call => which call.2 && call.1.task == t := by
    rw [Engine.handled, List.countP_filterMap]
    exact List.countP_congr fun entry _ => by rw [Note.calls_eq handler]
  rw [read, h.handled, List.countP_filterMap, countP_outcomes]
  refine List.countP_congr fun ended _ => ?_
  cases ended.2.callback? <;> rfl

theorem mem_outcomes {t : TaskId} {outcome : Outcome} :
    outcome ∈ e.outcomes t ↔ ∃ id, id.task = t ∧ (id, outcome) ∈ e.finishes := by
  simp [outcomes, and_comm]

theorem Concordant.fits_outcomes (h : e.Concordant) {t : TaskId} {task : TaskRecord}
    (known : e.tasks[t]? = some task) :
    ∀ outcome ∈ e.outcomes t, outcome.fits task.spec.reportCancellations = true := by
  intro outcome mem
  obtain ⟨id, rfl, ended⟩ := mem_outcomes.mp mem
  obtain ⟨task', known', fits⟩ := h.fits _ ended
  obtain rfl := Option.some.inj (known.symm.trans known')
  exact fits

theorem Concordant.failed_of_handled (h : e.Concordant) {run : RunId} {err : WorkError}
    (called : (run, .onError err) ∈ e.handled) : (run, .failed err) ∈ e.finishes := by
  rw [h.handled] at called
  obtain ⟨⟨id, outcome⟩, ended, told⟩ := List.mem_filterMap.mp called
  obtain ⟨callback, fails, same⟩ := Option.map_eq_some_iff.mp told
  obtain ⟨rfl, rfl⟩ := Prod.mk.inj same
  obtain rfl : outcome = .failed err := Outcome.eq_failed_of_callback? fails
  exact ended

/-- What the record of task `t`, the events about it, the calls of the handler and the outcomes of
its runs have to do with each other. -/
structure Balanced (e : Engine) (t : TaskId) (task : TaskRecord) : Prop where
  runs : task.runCount =
    task.running + task.successCount + task.failCount + task.filteredCount
  panics : task.panicCount ≤ task.failCount
  cancellations : task.spec.reportCancellations = true →
    task.canceledCount ≤ task.failCount - task.panicCount
  lastStarted : task.lastStarted.isSome = true ↔ 0 < task.runCount
  lastFinished : task.lastFinished.isSome = true ↔ task.running < task.runCount
  lastSuccess : task.lastSuccess.isSome = true ↔ 0 < task.successCount
  lastError : task.lastError.isSome = true ↔ 0 < task.failCount
  succeeded : e.publications .runSucceeded t = task.successCount
  failed : e.publications .runFailed t = task.failCount - task.panicCount
  panicked : e.publications .runPanicked t = task.panicCount
  canceled : e.publications .runCanceled t = task.filteredCount
  onError : e.calls (·.isOnError) t = e.publications .runFailed t
  onPanic : e.calls (·.isOnPanic) t = e.publications .runPanicked t
  /-- The counted failures are the outcomes that are, and the newest of them left the last error. -/
  failures : task.failCount = (e.outcomes t).countP (·.isFailure)
  errorText : task.lastError = (e.outcomes t).findSome? (·.errorText?)
  /-- No failure, and nothing that the handler hears of, is a cancellation that is not reported. -/
  filtered : task.spec.reportCancellations = false →
    ∀ err, .failed err ∈ e.outcomes t → err.isCancellation = false
  unheard : task.spec.reportCancellations = false →
    ∀ run err, run.task = t → (run, .onError err) ∈ e.handled → err.isCancellation = false

theorem balanced {t : TaskId} {task : TaskRecord} (known : e.tasks[t]? = some task)
    (sound : e.Sound) (tallied : e.Tallied) (h : e.Concordant) : e.Balanced t task := by
  have counts : task.tally.Counts (e.begun t) (e.outcomes t) := tallyOf_of_known known ▸ tallied t
  have runs : task.runCount = e.begun t := counts.runs
  have successes : task.successCount = _ := counts.successes
  have failures : task.failCount = _ := counts.failures
  have panics : task.panicCount = _ := counts.panics
  have cancellations : task.canceledCount = _ := counts.cancellations
  have ended : task.running + (e.outcomes t).length = task.runCount := by
    rw [runs, length_outcomes, (sound.known t task known).counted]
  have fits := h.fits_outcomes known
  have kinds := Outcome.length_eq_countP (e.outcomes t)
  have failed := Outcome.countP_isFailure (e.outcomes t)
  have canceled : (e.outcomes t).countP (·.event == .runCanceled) = task.filteredCount := by
    rw [Outcome.countP_canceled fits, ← cancellations, TaskRecord.filteredCount]
  have filtered {err : WorkError} (mem : .failed err ∈ e.outcomes t)
      (silent : task.spec.reportCancellations = false) : err.isCancellation = false := by
    simpa [Outcome.fits, silent] using fits _ mem
  have calls {which : Callback → Bool} {kind : EventKind} (ends : kind.isRunFinished = true)
      (handler : ∀ callback, which callback = true → callback.isOfHandler = true)
      (same : ∀ outcome : Outcome, outcome.callback?.any which = (outcome.event == kind)) :
      e.calls which t = e.publications kind t := by
    rw [h.calls handler, h.publications ends]
    exact List.countP_congr fun outcome _ => by rw [same]
  constructor
  case runs => omega
  case panics => omega
  case cancellations =>
    intro reports
    have within := Outcome.countP_isCancellation_le (reports ▸ fits)
    omega
  case lastStarted =>
    rw [runs]
    exact counts.lastStarted
  case lastFinished =>
    rw [← ended, Nat.lt_add_right_iff_pos, List.length_pos_iff]
    exact counts.lastFinished
  case lastSuccess => exact counts.lastSuccess_isSome_iff
  case lastError => exact counts.lastError_isSome_iff
  case succeeded => rw [h.publications rfl, successes]
  case failed =>
    rw [h.publications rfl]
    omega
  case panicked => rw [h.publications rfl, panics]
  case canceled => rw [h.publications rfl, canceled]
  case onError =>
    exact calls rfl (fun _ => Callback.isOfHandler_of_isOnError) Outcome.any_isOnError_callback?
  case onPanic =>
    exact calls rfl (fun _ => Callback.isOfHandler_of_isOnPanic) Outcome.any_isOnPanic_callback?
  case failures => exact failures
  case errorText => exact counts.lastError
  case filtered => exact fun silent err mem => filtered mem silent
  case unheard =>
    exact fun silent run err same called =>
      filtered (mem_outcomes.mpr ⟨run, same, h.failed_of_handled called⟩) silent

end Engine

namespace World

open Engine

variable {w w' : World}

/-! ## 4. All worlds -/

/-- The handler is called for a failure, and nothing else is told. -/
theorem Reports.told {outcome : Outcome} {run : RunId} (h : Reports outcome run w w') :
    w'.engine.announcedEnds = w.engine.announcedEnds ∧
    w'.engine.handled = (outcome.callback?.map (run, ·)).toList ++ w.engine.handled ∧
    w'.engine.finishes = w.engine.finishes := by
  cases h with
  | silent none => exact ⟨rfl, by rw [none]; rfl, rfl⟩
  | called fails h =>
      obtain ⟨announced, handled, finishes⟩ := silent_of_routine h.leads.routine
      refine ⟨announced, handled.trans ?_, finishes⟩
      rw [fails]
      exact List.filterMap_cons_some (if_pos (Outcome.isOfHandler_callback? fails))

/-- The end of a run is told everywhere. -/
theorem tells_conclude {spec : ResolvedSpec} {run : Run} (hosts : w.Hosts spec run)
    (started : Instant) (outcome : Outcome) :
    Tells run.id outcome w.engine (w.conclude spec run started outcome).engine := by
  obtain ⟨shown, told, elapsed, carries, reports, is⟩ := conclude_eq w spec run started outcome
  obtain ⟨present, task, known, -⟩ := carries.hosts hosts
  obtain ⟨leads, -, retains⟩ := reports.follows
  obtain ⟨_, found⟩ := Option.isSome_iff_exists.mp (retains _ present)
  obtain ⟨now, known, -⟩ := leads.grows _ task known
  let event := terminalEvent spec.name run.id.number outcome elapsed
  have last : (w.conclude spec run started outcome).engine =
      (told.engine.publishAbout run.id.task event).finish run.id outcome := congrArg World.engine is
  obtain ⟨announced, handled, finishes⟩ := silent_of_routine carries.leads.routine
  obtain ⟨announced', handled', finishes'⟩ := reports.told
  rw [last]
  constructor
  · rw [announcedEnds_finish (terminalEvent_kind ..) (terminalEvent_run ..), announced', announced]
  · have silent : Notes (·.handled? = none) told.engine
        ((told.engine.publishAbout run.id.task event).finish run.id outcome) :=
      .trans (notes_cons rfl rfl) (notes_finish _ rfl fun _ => rfl)
    rw [← handled, ← handled']
    exact filterMap_of_notes silent
  · rw [← finishes, ← finishes']
    exact finishes_finish (e := told.engine.publishAbout run.id.task event) found known outcome

section Reached

variable {config : Config} {subscribers : List Subscriber} {hook : Option Hook} {handler : Handler}

theorem concordant_reached
    (reached : Relation.ReflTransGen Step (create config subscribers hook handler) w) :
    w.engine.Concordant := by
  refine keeps_reached (fun _ _ routine h => h.routine routine) ?_ reached
    (concordant_create config subscribers)
  intro w spec run started outcome hosts fits h
  obtain ⟨task, known, rfl⟩ := hosts.known
  exact h.tells (tells_conclude hosts started outcome)
    (Deed.conclude w hosts started fits).follows.1.grows ⟨task, known, fits⟩

/-- **All reporting channels agree on every run.**  Whatever a world does, with every hook, handler
and work, in every order of turns: the announced ends of runs and the calls of the handler are, run
by run, those of the outcomes that were noted, and for every task the counters and the marks of its
record, the events about it and the calls of the handler agree in number.  A cancellation that the
task does not report is no failure, leaves no error text and is not heard of by the handler. -/
theorem reporting_channels_agree
    (reached : Relation.ReflTransGen Step (create config subscribers hook handler) w) :
    w.engine.Concordant ∧ ∀ (t : TaskId) (task : TaskRecord), w.engine.tasks[t]? = some task →
      w.engine.Balanced t task := by
  have concordant := concordant_reached reached
  obtain ⟨moves, admitted, after⟩ := engine_has_history reached
  have sound : w.engine.Sound := after ▸
    keeps_after (fun _ _ _ => Sound.change) admitted (sound_create config subscribers)
  have tallied : w.engine.Tallied := after ▸
    keeps_after (fun _ _ _ => Tallied.change) admitted (tallied_create config subscribers)
  exact ⟨concordant, fun t task known => balanced known sound tallied concordant⟩

end Reached

/-- A task that does not report cancellations, and whose work gives up at first and fails then. -/
def quitter : Spec := .onDemand (.plays [[.answer .canceled], [.answer (.failed "no")]])

def asked (w : World) : World := { w with engine := (w.engine.request 0 none).1 }

/-- The engine with this task has started. -/
def quitterStarted : World :=
  let added := ((create {} [] none .logging).add quitter).1
  { added with engine := (added.engine.start (.named "t")).1 }

def quitterRan : World := turn (.run ⟨0, 1⟩) quitterStarted.asked

/-- Two runs have ended, one after the other. -/
def quitterRanTwice : World := turn (.run ⟨0, 2⟩) quitterRan.asked

theorem reporting_channels_agree_quitter :
    Relation.ReflTransGen Step (create {} [] none .logging) quitterRanTwice ∧
    quitterRanTwice.engine.calls (·.isOnError) 0 = 1 ∧
    quitterRanTwice.engine.publications .runCanceled 0 = 1 := by
  have started : Relation.ReflTransGen Step (create {} [] none .logging) quitterStarted :=
    .tail (.single (.add _ quitter)) (.start _ (.named "t"))
  have runs {w : World} {id : RunId} (live : Process.run id ∈ w.asked.live)
      (able : w.asked.able (.run id) = true) :
      Relation.ReflTransGen Step w (turn (.run id) w.asked) :=
    .tail (.single (.request w 0)) (.machine (Machine.Step.turn (m := machine) _ _ live able))
  have once : Relation.ReflTransGen Step quitterStarted quitterRan :=
    runs (by decide +kernel) (by decide +kernel)
  have twice : Relation.ReflTransGen Step quitterRan quitterRanTwice :=
    runs (by decide +kernel) (by decide +kernel)
  have reached := (started.trans once).trans twice
  have counted : (quitterRanTwice.engine.tasks[0]?).map (fun task =>
      (task.failCount - task.panicCount, task.filteredCount)) = some (1, 1) := by decide +kernel
  obtain ⟨task, known, counts⟩ := Option.map_eq_some_iff.mp counted
  obtain ⟨failed, filtered⟩ := Prod.mk.inj counts
  have balanced := (reporting_channels_agree reached).2 0 task known
  exact ⟨reached, balanced.onError.trans (balanced.failed.trans failed),
    balanced.canceled.trans filtered⟩

end World

end TaskEngine
