/-
  TaskEngine/Proofs/Endings.lean
  ==============================
  **No panic leaks a run, but that of a call that is refused.**

  A run that takes a turn either goes on, with less of its work before it, or comes to its end: it
  has announced that once and finished once, its callers are told, its place is free and its panic
  is counted (`World.Settles`).  A hook, the handler or the work may panic anywhere in that turn:
  what happens up to the end of a run leaves it in flight with its callers (`World.Underway`), and
  its end does not ask whether something has panicked.  So a run takes no more turns than its work
  has actions, and one more (`World.Attested.turns_le`).

  The exception is work that panics when it is called, before there is anything to wait for.  That
  call is not guarded: the run is gone without an end (`World.Attested.lost_of_refuses`).
-/
import Mathlib.Algebra.Order.BigOperators.Group.List
import Mathlib.Algebra.Order.Ring.Nat
import TaskEngine.Proofs.Confinement
import TaskEngine.Proofs.Stillness

namespace TaskEngine

/-! ## 1. What a run has before it -/

/-- How many actions the work has for all its calls. -/
def Work.size (work : Work) : Nat := (work.calls.map List.length).sum

theorem Work.length_clampedGet_le (work : Work) (number : Nat) :
    (clampedGet work.calls number).length ≤ work.size := by
  have listed {actions : List Action} (mem : actions ∈ work.calls) : actions.length ≤ work.size :=
    List.single_le_sum (fun _ _ => Nat.zero_le _) _ (List.mem_map_of_mem mem)
  unfold clampedGet
  cases found : work.calls[number]? with
  | some actions => exact listed (List.mem_of_getElem? found)
  | none =>
      cases last : work.calls.getLast? with
      | some actions => exact listed (List.mem_of_getLast? last)
      | none => exact Nat.zero_le _

/-- How many more turns a run may take at most before its last one. -/
def Progress.turnsLeft (work : Work) : Progress → Nat
  | .launched => work.size
  | .working _ _ _ _ rest => rest.length

/-- What the work has panicked with, if it has. -/
def Halt.panic? : Halt → Option String
  | .panicked info => some info
  | .paused .. | .answered _ => none

/-- Whether the mark is one of the end of a run: the event that announces it, or the end itself. -/
def Mark.isEnding : Mark → Bool
  | .published event => event.kind.isRunFinished
  | .finished _ => true
  | .called _ => false

section Course

variable (hook : Option Hook) (spec : ResolvedSpec) (id : RunId)

theorem filter_isEnding_calls (hook : Option Hook) (callback : Callback) :
    ((hook.map fun _ => Mark.called callback).toList).filter (·.isEnding) = [] := by
  cases hook <;> rfl

theorem filter_isEnding_opening : (opening hook spec id).filter (·.isEnding) = [] := by
  simp only [opening, List.filter_append, filter_isEnding_calls, List.nil_append]
  rfl

theorem filter_isEnding_closing (outcome : Outcome) (elapsed : Duration) :
    (closing hook spec id outcome elapsed).filter (·.isEnding) =
      [.published (Engine.terminalEvent spec.name id.number outcome elapsed), .finished outcome] := by
  have told : ((outcome.callback?.map Mark.called).toList).filter (·.isEnding) = [] := by
    cases outcome <;> rfl
  have announces :
      (Engine.terminalEvent spec.name id.number outcome elapsed).kind.isRunFinished = true := by
    cases outcome <;> rfl
  simp only [closing, List.filter_append, filter_isEnding_calls, told, List.nil_append]
  exact List.filter_eq_self.mpr (by simp [Mark.isEnding, announces])

/-- A run in flight has left no mark of an end. -/
theorem Standing.unended {hook : Option Hook} {spec : ResolvedSpec} {id : RunId} {p : Progress}
    {marks : List Mark} (h : Standing hook spec id (some p) marks) :
    marks.filter (·.isEnding) = [] := by
  cases h with
  | launched => rfl
  | working calls call started limit pause rest =>
      rw [List.filter_append, filter_isEnding_opening]
      rfl

end Course

namespace Engine

variable {e e' e'' : Engine}

/-! ## 2. Runs that stay in flight -/

/-- Whatever was in flight is, with the same callers and as far as it had come. -/
def KeepsRuns (e e' : Engine) : Prop := ∀ id run, e.run? id = some run → e'.run? id = some run

theorem KeepsRuns.trans (first : KeepsRuns e e') (second : KeepsRuns e' e'') : KeepsRuns e e'' :=
  fun id run found => second id run (first id run found)

theorem keepsRuns_of_append {more : List Run} (runs : e'.runs = e.runs ++ more) : KeepsRuns e e' := by
  intro id run found
  rw [run?, runs, List.find?_append, Option.or_eq_some_iff]
  exact .inl found

theorem keepsRuns_of_runs (runs : e'.runs = e.runs) : KeepsRuns e e' :=
  keepsRuns_of_append (runs.trans (List.append_nil _).symm)

theorem keepsRuns_request (e : Engine) (t : TaskId) (waiter : Option WaiterId) :
    KeepsRuns e (e.request t waiter).1 := by
  have step := e.request_step t waiter
  generalize e.request t waiter = answer at step ⊢
  cases step with
  | refused err => exact keepsRuns_of_runs rfl
  | skipped task known full => exact keepsRuns_of_runs rfl
  | merged task known admits willing full overlap => exact keepsRuns_of_runs rfl
  | started task known admits willing room =>
      rw [beginRun_eq known]
      exact keepsRuns_of_append rfl

theorem keepsRuns_trigger (e : Engine) (name : String) : KeepsRuns e (e.trigger name).1 := by
  unfold trigger
  cases e.lookup? name with
  | none => exact keepsRuns_of_runs rfl
  | some t => exact keepsRuns_request e t none

/-- The end of a run is told to its callers. -/
theorem mem_mail_finish {run : Run} {task : TaskRecord} (found : e.run? run.id = some run)
    (known : e.tasks[run.id.task]? = some task) (outcome : Outcome) {v : WaiterId}
    (aboard : v ∈ run.waiters) :
    (v, .answered (outcome.waitResult !e.isOpen)) ∈ (e.finish run.id outcome).mail := by
  have told : (v, .answered (outcome.waitResult !e.isOpen)) ∈ (e.conclude run task outcome).mail :=
    List.mem_append_left _ (List.mem_map_of_mem aboard)
  simp only [finish, found, known]
  split
  · unfold settleOwed
    split
    · exact List.mem_append_right _ told
    · rw [beginRun_eq (known_conclude known outcome)]
      exact told
  · exact told

/-- Where nothing is cancelled the gate stays as it was. -/
theorem Minds.refusal? {spec : ResolvedSpec} {own : RunId}
    (h : Minds (fun _ => False) spec own e e') : e'.refusal? = e.refusal? := by
  have cancelled : e'.isCancelled e.runToken = e.isCancelled e.runToken := by
    rw [isCancelled, Cancellation.isCancelled, h.cancelled_eq]
    rfl
  simp only [Engine.refusal?, h.phase, h.allots.runToken, cancelled]

end Engine

namespace World

open Engine

variable {w w' w'' : World} {run : Run} {spec : ResolvedSpec} {more : List Mark}

theorem Errand.keepsRuns (h : Errand w w') : w.engine.KeepsRuns w'.engine := by
  cases h with
  | trace task t => exact keepsRuns_of_runs rfl
  | log r => exact keepsRuns_of_runs rfl
  | trigger task target =>
      have asked : w.engine.KeepsRuns (w.engine.trigger target).1 := keepsRuns_trigger w.engine target
      exact asked.trans (keepsRuns_of_runs rfl)
  | cancel t => exact keepsRuns_of_runs rfl
  | workshop t f => exact keepsRuns_of_runs rfl
  | watch task token => exact keepsRuns_of_runs rfl

theorem Errands.keepsRuns (h : Errands w w') : w.engine.KeepsRuns w'.engine :=
  h.relates (fun _ => keepsRuns_of_runs rfl) .trans Errand.keepsRuns

theorem Calls.keepsRuns {callback? : Option Callback} {own : RunId} (h : Calls callback? own w w') :
    w.engine.KeepsRuns w'.engine := by
  cases h with
  | silent none => exact keepsRuns_of_runs rfl
  | @called _ callback calls errands =>
      have noted : w.engine.KeepsRuns (w.note (.called callback own)).engine := keepsRuns_of_runs rfl
      exact noted.trans errands.keepsRuns

/-! ## 3. Until the end of a run -/

/-- In a turn of a run that began in `w`, the run has not ended so far. -/
structure Underway (spec : ResolvedSpec) (run : Run) (w w' : World) : Prop where
  leads : w.engine.Leads w'.engine
  boards : w'.Boards w.hook spec run
  found : w'.engine.run? run.id = some run
  silent : w'.engine.finishes = w.engine.finishes
  unended : (w'.engine.marks run.id).filter (·.isEnding) = []

theorem Underway.adds (h : Underway spec run w w') (carries : Carries w' w'')
    (keeps : w'.engine.KeepsRuns w''.engine) (adds : Adds run.id more id w' w'')
    (none : more.filter (·.isEnding) = []) : Underway spec run w w'' where
  leads := h.leads.trans carries.leads.leads
  boards := adds.boards h.boards
  found := keeps _ _ h.found
  silent := (silent_of_routine carries.leads.routine).finishes.trans h.silent
  unended := by rw [adds.engine.marks, List.filter_append, h.unended, none, List.nil_append]

theorem Underway.errands (h : Underway spec run w w') (errands : Errands w' w'') :
    Underway spec run w w'' :=
  h.adds errands.carries errands.keepsRuns (errands.launches.adds run.id) rfl

theorem Underway.callBefore (h : Underway spec run w w') (callback : Callback) (hook : Option Hook)
    (other : callback.isOfHandler = false) :
    Underway spec run w (w'.callBefore callback hook spec run) :=
  h.adds (carries_callBefore w' other hook spec run) (calls_callBefore ..).keepsRuns
    (adds_callBefore ..) (filter_isEnding_calls ..)

/-- What a run does in its first turn before its work is called. -/
def opened (w : World) (spec : ResolvedSpec) (run : Run) : World :=
  ((w.callBefore .engineBefore w.hook spec run).callBefore .taskBefore spec.hook spec
    run).publishAbout run.id.task
      { kind := .runStarted, task := some spec.name, run := some run.id.number }

theorem Underway.opened (h : Underway spec run w w) : Underway spec run w (w.opened spec run) := by
  have hooked := (h.callBefore .engineBefore w.hook rfl).callBefore .taskBefore spec.hook rfl
  exact hooked.adds (carries_announce _ hooked.boards.present rfl) (keepsRuns_of_runs rfl)
    ⟨adds_publishAbout _ rfl rfl, rfl⟩ rfl

/-- The first actions of the work of a run. -/
def firstPlay (w : World) (spec : ResolvedSpec) (run : Run) : World × Halt :=
  let number := ((w.workshops[run.id.task]?).map (·.calls)).getD 0
  play run.id spec.name run.token (Work.clampedGet spec.work.calls number)
    (((w.updateWorkshop run.id.task fun s => { s with calls := number + 1 }).note
      (.called .work run.id)).trace spec.name
        (.work (number + 1) (w.engine.isCancelled run.token)))

theorem callWork_of_calls (w : World) (run : Run) (calls : spec.work.refuses run.id.number = false) :
    ∃ call limit, w.callWork spec run =
      (w.firstPlay spec run).1.afterPlay spec run call w.now limit (w.firstPlay spec run).2 := by
  unfold callWork
  rw [Work.refuses_eq_false_iff.mp calls]
  exact ⟨_, _, rfl⟩

theorem Underway.firstPlay (h : Underway spec run w w') :
    Underway spec run w (w'.firstPlay spec run).1 := by
  have entered (f : Workshop → Workshop) := h.errands (Errand.workshop w' run.id.task f).errands
  have called (f : Workshop → Workshop) := (entered f).adds (carries_called _ rfl run.id)
    (keepsRuns_of_runs rfl) (adds_called _ run.id .work) rfl
  exact ((called _).errands (Errand.trace ..).errands).errands (errands_play ..)

/-- Work that has to wait has less before it. -/
theorem length_of_firstPlay {pause : Pause} {rest : List Action}
    (halts : (w.firstPlay spec run).2 = .paused pause rest) : rest.length < spec.work.size := by
  have plays : Plays (fun _ => True) spec run.id _ _ (w.firstPlay spec run) :=
    plays_play run.id spec.name run.token _ _ fun _ _ => trivial
  exact (plays.rest pause rest halts).2.trans_le (Work.length_clampedGet_le ..)

theorem length_of_resume {pause pause' : Pause} {actions rest : List Action}
    (halts : (w.resume spec.name run pause actions).2 = .paused pause' rest) :
    rest.length < actions.length := by
  have plays : Plays (fun _ => True) spec run.id actions w (w.resume spec.name run pause actions) :=
    plays_resume w spec.name run pause actions fun _ _ => trivial
  exact (plays.rest pause' rest halts).2

/-- What the work of a run panics with in its turn, if it does. -/
def panics? (w : World) (spec : ResolvedSpec) (run : Run) : Option String :=
  match run.progress with
  | .launched =>
      (spec.work.refusal? run.id.number).or ((w.opened spec run).firstPlay spec run).2.panic?
  | .working _ _ _ pause rest =>
      if w.pauseOver run pause then (w.resume spec.name run pause rest).2.panic? else none

/-! ## 4. The end of a run -/

/-- In its turn the run has come further, and is in flight for the same callers. -/
def GoesOn (work : Work) (run : Run) (w' : World) : Prop :=
  ∃ later, w'.engine.run? run.id = some later ∧ later.waiters = run.waiters ∧
    later.progress.turnsLeft work < run.progress.turnsLeft work

/-- In its turn the run has come to its end with that outcome: it has left the event that announces
it and its end, each once, its callers are told, every place that its task takes belongs to another
run, in flight or lost, and its panic is counted if it was one. -/
structure Settles (run : Run) (outcome : Outcome) (w w' : World) : Prop where
  gone : w'.engine.run? run.id = none
  ends : ∃ event, event.kind = outcome.event ∧
    (w'.engine.marks run.id).filter (·.isEnding) = [.published event, .finished outcome]
  answered : ∀ v ∈ run.waiters,
    (v, .answered (outcome.waitResult !w'.engine.isOpen)) ∈ w'.engine.mail
  released : run.id ∉ w'.engine.lost ∧ ∀ task, w'.engine.tasks[run.id.task]? = some task →
    task.running = w'.engine.inFlight run.id.task +
      w'.engine.lost.countP (·.task == run.id.task)
  counted : (w'.engine.tallyOf run.id.task).panics = (w.engine.tallyOf run.id.task).panics +
    if outcome.event == .runPanicked then 1 else 0

/-- The run goes on or has come to its end, and a panic of its work is how it has ended. -/
structure Contains (spec : ResolvedSpec) (run : Run) (w w' : World) : Prop where
  ends : GoesOn spec.work run w' ∨ ∃ outcome, Settles run outcome w w'
  panicked : ∀ info, w.panics? spec run = some info → Settles run (.panicked info) w w'

theorem Attested.audited (h : w.Attested) : w.engine.Audited :=
  h.invariant (fun _ _ _ => Audited.change) audited_create

theorem Attested.tallied (h : w.Attested) : w.engine.Tallied :=
  h.invariant (fun _ _ _ => Tallied.change) tallied_create

theorem keepsRuns_conclude (w : World) (spec : ResolvedSpec) (run : Run) (outcome : Outcome) :
    w.engine.KeepsRuns (((w.callAfter .engineAfter w.hook spec run outcome).callAfter .taskAfter
      spec.hook spec run outcome).callHandler spec.name run.id outcome).engine :=
  ((calls_callAfter ..).keepsRuns.trans (calls_callAfter ..).keepsRuns).trans
    (calls_callHandler ..).keepsRuns

/-- Whoever waits for a run is told how it ended. -/
theorem answered_conclude (hosts : w.Hosts spec run) (found : w.engine.run? run.id = some run)
    (started : Instant) (outcome : Outcome) {v : WaiterId} (aboard : v ∈ run.waiters) :
    (v, .answered (outcome.waitResult !(w.conclude spec run started outcome).engine.isOpen)) ∈
      (w.conclude spec run started outcome).engine.mail := by
  let told := ((w.callAfter .engineAfter w.hook spec run outcome).callAfter .taskAfter spec.hook spec
    run outcome).callHandler spec.name run.id outcome
  let event := terminalEvent spec.name run.id.number outcome (w.now.since started)
  let announced := told.engine.publishAbout run.id.task event
  have there : announced.run? run.id = some run := keepsRuns_conclude w spec run outcome _ _ found
  have hooked := (adds_callAfter w .engineAfter w.hook spec run outcome).trans
    (adds_callAfter _ .taskAfter spec.hook spec run outcome)
  have adds := hooked.trans (calls_callHandler _ spec.name run.id outcome).adds
  obtain ⟨task, known, -⟩ := hosts.known
  obtain ⟨new, known', -⟩ := adds.engine.grows _ task known
  have minds : Engine.Minds (fun _ => False) spec run.id announced (announced.finish run.id outcome) :=
    minds_finish announced outcome
  have isOpen : (w.conclude spec run started outcome).engine.isOpen = announced.isOpen :=
    congrArg Option.isNone minds.refusal?
  rw [isOpen]
  exact mem_mail_finish (e := announced) there known' outcome aboard

/-- A run that is shown to the hooks and the handler, announced and finished has come to its end,
whatever panicked before. -/
theorem Underway.settles (h : Underway spec run w w') (attested : w.Attested) (started : Instant)
    (outcome : Outcome) (attested' : (w'.conclude spec run started outcome).Attested) :
    Settles run outcome w (w'.conclude spec run started outcome) := by
  have boards := h.boards
  have adds := adds_conclude boards started outcome
  have begun := boards.numbered.inFlight run (mem_of_run? h.found).1
  have tells := tells_conclude boards.toHosts started outcome
  constructor
  case gone =>
    have gone := adds.engine.progress boards.numbered begun
    rwa [progress?, Option.map_eq_none_iff] at gone
  case ends =>
    let event := terminalEvent spec.name run.id.number outcome (w'.now.since started)
    refine ⟨event, terminalEvent_kind .., ?_⟩
    rw [adds.engine.marks, List.filter_append, h.unended, filter_isEnding_closing, List.nil_append]
  case answered => exact fun v => answered_conclude boards.toHosts h.found started outcome
  case released =>
    have finished : (run.id, outcome) ∈ (w'.conclude spec run started outcome).engine.finishes := by
      rw [tells.finishes]
      exact List.mem_cons_self
    exact ⟨not_mem_lost_of_finished finished, fun task known => attested'.audited.running_eq known⟩
  case counted =>
    have outcomes : (w'.conclude spec run started outcome).engine.outcomes run.id.task =
        outcome :: w.engine.outcomes run.id.task := by
      rw [Engine.outcomes, tells.finishes, h.silent, List.filter_cons_of_pos (by simp)]
      rfl
    rw [(attested'.tallied _).panics, (attested.tallied _).panics, outcomes, List.countP_cons]

/-- What the actions of the work came to in the turn is taken care of. -/
theorem Underway.contains {played : World × Halt} (h : Underway spec run w played.1)
    (attested : w.Attested) (call : Nat) (started : Instant) (limit : Option (Duration × Instant))
    (less : ∀ pause rest, played.2 = .paused pause rest →
      rest.length < run.progress.turnsLeft spec.work)
    (panics : w.panics? spec run = played.2.panic?)
    (turn : w' = played.1.afterPlay spec run call started limit played.2) (attested' : w'.Attested) :
    Contains spec run w w' := by
  obtain ⟨played, halt⟩ := played
  subst turn
  have traced (how : WorkExit) := h.errands (Errand.trace played spec.name (.workEnd call how)).errands
  cases halt with
  | paused pause rest =>
      have found : (played.engine.setProgress run.id (.working call started limit pause rest)).run?
          run.id = some { run with progress := .working call started limit pause rest } := by
        rw [run?_setProgress, h.found]
        simp
      refine ⟨.inl ⟨_, found, rfl, less pause rest rfl⟩, fun info same => ?_⟩
      cases panics.symm.trans same
  | answered result =>
      refine ⟨.inr ⟨_, (traced _).settles attested started _ attested'⟩, fun info same => ?_⟩
      cases panics.symm.trans same
  | panicked info =>
      have settles := (traced .panicked).settles attested started (.panicked info) attested'
      refine ⟨.inr ⟨_, settles⟩, fun other same => ?_⟩
      obtain rfl : info = other := Option.some.inj (panics.symm.trans same)
      exact settles

/-! ## 5. Turns -/

section Turns

variable {task : TaskRecord}

/-- At the beginning of its turn a run in flight has not ended. -/
theorem Attested.underway (h : w.Attested) (mem : run ∈ w.engine.runs)
    (known : w.engine.tasks[run.id.task]? = some task) : Underway task.spec run w w := by
  have found := h.found mem
  have begun := h.recorded.numbered.inFlight run mem
  obtain ⟨_, same, standing⟩ := h.recorded.stands run.id begun
  rw [progress?, found] at standing
  exact ⟨.refl _, ⟨⟨Option.isSome_of_eq_some found, task, known, rfl⟩, h.recorded.numbered, rfl⟩,
    found, rfl, standing.unended⟩

/-- Work that has been called did not refuse the call. -/
theorem Attested.launched_of_refuses (h : w.Attested) (mem : run ∈ w.engine.runs)
    (known : w.engine.tasks[run.id.task]? = some task)
    (refuses : task.spec.work.refuses run.id.number = true) : run.progress = .launched := by
  obtain ⟨_, same, standing⟩ := h.recorded.stands run.id (h.recorded.numbered.inFlight run mem)
  obtain rfl := Option.some.inj (same.symm.trans known)
  rw [progress?, h.found mem, Option.map_some] at standing
  generalize w.engine.marks run.id = marks at standing
  generalize run.progress = p at standing ⊢
  cases standing with
  | launched => rfl
  | working calls call started limit pause rest =>
      rw [calls] at refuses
      cases refuses

theorem Attested.turned (h : w.Attested) (mem : run ∈ w.engine.runs)
    (able : w.able (.run run.id) = true) : (w.turnRun run.id).Attested :=
  h.perform (a := .turn (.run run.id)) (allows_of_able mem able) rfl

/-- The first turn of a run. -/
theorem Attested.contains_launched (h : w.Attested) (mem : run ∈ w.engine.runs)
    (known : w.engine.tasks[run.id.task]? = some task) (able : w.able (.run run.id) = true)
    (calls : task.spec.work.refuses run.id.number = false) (progress : run.progress = .launched) :
    Contains task.spec run w (w.turnRun run.id) := by
  have underway := (h.underway mem known).opened.firstPlay
  obtain ⟨call, limit, called⟩ := callWork_of_calls (w.opened task.spec run) run calls
  refine underway.contains h call (w.opened task.spec run).now limit ?_ ?_ ?_ (h.turned mem able)
  · intro pause rest halts
    rw [progress]
    exact length_of_firstPlay halts
  · simp only [panics?, progress, Work.refuses_eq_false_iff.mp calls, Option.none_or]
  · rw [← called]
    simp only [turnRun, h.found mem, known, progress]
    rfl

section Working

variable {call : Nat} {started : Instant} {limit : Option (Duration × Instant)} {pause : Pause}
  {rest : List Action}

/-- A turn of a run whose work goes on. -/
theorem Attested.contains_resumed (h : w.Attested) (mem : run ∈ w.engine.runs)
    (known : w.engine.tasks[run.id.task]? = some task) (able : w.able (.run run.id) = true)
    (progress : run.progress = .working call started limit pause rest)
    (ready : w.pauseOver run pause = true) : Contains task.spec run w (w.turnRun run.id) := by
  have underway := (h.underway mem known).errands (errands_resume w task.spec.name run pause rest)
  refine underway.contains h call started limit ?_ ?_ ?_ (h.turned mem able)
  · intro pause' rest' halts
    rw [progress]
    exact length_of_resume halts
  · simp only [panics?, progress, if_pos ready]
  · simp only [turnRun, h.found mem, known, progress, continueRun, if_pos ready]

/-- A turn of a run whose time is up: its work is dropped, so it does not panic. -/
theorem Attested.contains_cutShort (h : w.Attested) (mem : run ∈ w.engine.runs)
    (known : w.engine.tasks[run.id.task]? = some task) (able : w.able (.run run.id) = true)
    (progress : run.progress = .working call started limit pause rest)
    (waits : ¬w.pauseOver run pause = true) : Contains task.spec run w (w.turnRun run.id) := by
  have found := h.found mem
  have underway := (h.underway mem known).errands (errands_dropWork w task.spec run call)
  have attested' := h.turned mem able
  rw [World.able, found, Option.any_some, canRun, progress] at able
  have up : w.timeIsUp limit = true := (Bool.or_eq_true_iff.mp able).resolve_left waits
  cases limit with
  | none => cases up
  | some bound =>
      have due : bound.2.isDue w.now = true := up
      let late : Outcome := .ofAnswer task.spec.reportCancellations (.error (.timeout bound.1))
      have turn : w.turnRun run.id =
          (w.dropWork task.spec run call).conclude task.spec run started late := by
        simp only [turnRun, found, known, progress, continueRun, if_neg waits, due, if_true]
        rfl
      have silent : w.panics? task.spec run = none := by simp only [panics?, progress, if_neg waits]
      rw [turn] at attested' ⊢
      refine ⟨.inr ⟨late, underway.settles h started late attested'⟩, fun info panics => ?_⟩
      cases silent.symm.trans panics

end Working

/-- A run whose work does not refuse the call goes on in its turn or comes to its end. -/
theorem Attested.contains (h : w.Attested) (mem : run ∈ w.engine.runs)
    (known : w.engine.tasks[run.id.task]? = some task) (able : w.able (.run run.id) = true)
    (calls : task.spec.work.refuses run.id.number = false) :
    Contains task.spec run w (w.turnRun run.id) := by
  cases progress : run.progress with
  | launched => exact h.contains_launched mem known able calls progress
  | working call started limit pause rest =>
      by_cases ready : w.pauseOver run pause = true
      · exact h.contains_resumed mem known able progress ready
      · exact h.contains_cutShort mem known able progress ready

/-- In its turn the run is lost: it has not ended and never will, its callers are left without an
answer, its place stays taken, and no panic is counted. -/
structure Lost (run : Run) (w w' : World) : Prop where
  gone : w'.engine.run? run.id = none
  unended : (w'.engine.marks run.id).filter (·.isEnding) = []
  unanswered : ∀ v ∈ run.waiters, (v, .dropped) ∈ w'.engine.mail
  taken : ∃ task, w'.engine.tasks[run.id.task]? = some task ∧
    w'.engine.inFlight run.id.task < task.running
  uncounted : (w'.engine.tallyOf run.id.task).panics = (w.engine.tallyOf run.id.task).panics

/-- A run whose work refuses the call is gone at that call. -/
theorem Attested.turnRun_of_refuses (h : w.Attested) (mem : run ∈ w.engine.runs)
    (known : w.engine.tasks[run.id.task]? = some task)
    (refuses : task.spec.work.refuses run.id.number = true) :
    (w.turnRun run.id).engine =
      ((w.opened task.spec run).engine.removeRun run.id).deliver run.waiters .dropped := by
  have opened := (h.underway mem known).opened
  have turn : w.turnRun run.id = (w.opened task.spec run).onEngine (·.abandon run.id) := by
    simp only [turnRun, h.found mem, known, h.launched_of_refuses mem known refuses]
    obtain ⟨info, refusal⟩ := Option.isSome_iff_exists.mp refuses
    unfold launch callWork
    rw [refusal]
    rfl
  rw [turn]
  simp only [onEngine, Engine.abandon, opened.found]

/-- So it is lost in its first turn. -/
theorem Attested.lost_of_refuses (h : w.Attested) (mem : run ∈ w.engine.runs)
    (known : w.engine.tasks[run.id.task]? = some task)
    (refuses : task.spec.work.refuses run.id.number = true) : Lost run w (w.turnRun run.id) := by
  have opened := (h.underway mem known).opened
  have lost := h.turnRun_of_refuses mem known refuses
  obtain ⟨new, known', -⟩ := opened.leads.grows _ task known
  constructor
  case gone =>
    rw [lost]
    exact List.find?_eq_none.mpr fun other mem => by simpa using (List.mem_filter.mp mem).2
  case unended =>
    rw [lost]
    exact opened.unended
  case unanswered =>
    intro v aboard
    rw [lost]
    exact List.mem_append_left _ (List.mem_map_of_mem aboard)
  case taken =>
    have sound : (w.opened task.spec run).engine.Sound := opened.leads.keeps
      (fun _ _ _ => Sound.change) (h.invariant (fun _ _ _ => Sound.change) sound_create)
    rw [lost]
    refine ⟨new, known', ?_⟩
    have there := (mem_of_run? opened.found).1
    exact (inFlight_filter_lt there).trans_le (sound.known _ new known').present
  case uncounted =>
    have tallied : (w.opened task.spec run).engine.Tallied :=
      opened.leads.keeps (fun _ _ _ => Tallied.change) h.tallied
    have outcomes : (w.opened task.spec run).engine.outcomes run.id.task =
        w.engine.outcomes run.id.task := by
      rw [Engine.outcomes, opened.silent, Engine.outcomes]
    rw [lost, (h.tallied _).panics, ← outcomes]
    exact (tallied _).panics

end Turns

/-! ## 6. All turns of a run -/

/-- Whether the act is a turn of the run. -/
def Act.isTurnOf (id : RunId) : Act → Bool
  | .turn (.run own) => own == id
  | _ => false

theorem eq_turn_of_isTurnOf {id : RunId} {a : Act} (turns : a.isTurnOf id = true) :
    a = .turn (.run id) := by
  unfold Act.isTurnOf at turns
  split at turns
  · rw [beq_iff_eq.mp turns]
  · cases turns

/-- How many more turns a run may take, with that work before it. -/
def turnsLeft (w : World) (work : Work) (id : RunId) : Nat :=
  ((w.engine.progress? id).map (·.turnsLeft work + 1)).getD 0

section Acts

variable {id : RunId} {a : Act} {task : TaskRecord}

theorem turnsLeft_of_run? {work : Work} (found : w.engine.run? id = some run) :
    w.turnsLeft work id = run.progress.turnsLeft work + 1 := by
  rw [turnsLeft, progress?, found]
  rfl

theorem turnsLeft_of_gone {work : Work} (gone : w.engine.run? id = none) :
    w.turnsLeft work id = 0 := by
  rw [turnsLeft, progress?, gone]
  rfl

/-- A turn brings a run nearer to its end. -/
theorem Attested.turnsLeft_turnRun (h : w.Attested) (known : w.engine.tasks[id.task]? = some task)
    (able : w.able (.run id) = true) :
    (w.turnRun id).turnsLeft task.spec.work id < w.turnsLeft task.spec.work id := by
  obtain ⟨run, found, -⟩ := (Option.any_eq_true ..).mp able
  obtain ⟨mem, rfl⟩ := mem_of_run? found
  rw [turnsLeft_of_run? found]
  cases refuses : task.spec.work.refuses run.id.number with
  | true =>
      rw [turnsLeft_of_gone (h.lost_of_refuses mem known refuses).gone]
      exact Nat.succ_pos _
  | false =>
      have ends := (h.contains mem known able refuses).ends
      rcases ends with ⟨later, found', -, less⟩ | ⟨outcome, settles⟩
      · rw [turnsLeft_of_run? found']
        exact Nat.succ_lt_succ less
      · rw [turnsLeft_of_gone settles.gone]
        exact Nat.succ_pos _

/-- Nothing happens to a run that has begun but in its own turns. -/
theorem Attested.keeps_begun (h : w.Attested) (begun : w.engine.hasBegun id)
    (allowed : w.allows a = true) (plain : a.isRedraw = false) :
    (w.perform a).engine.hasBegun id ∧ (a.isTurnOf id = false →
      (w.perform a).engine.progress? id = w.engine.progress? id) := by
  have numbered := h.recorded.numbered
  by_cases turns : ∃ own, a = .turn (.run own)
  · obtain ⟨own, rfl⟩ := turns
    obtain ⟨-, able⟩ := of_decide_eq_true allowed
    obtain ⟨run, found, -⟩ := (Option.any_eq_true ..).mp able
    obtain ⟨-, _, -, more, becomes, adds, -⟩ :=
      h.recorded.takes_turnRun (Option.isSome_of_eq_some found)
    refine ⟨adds.engine.begun id begun, fun other => ?_⟩
    have different : id ≠ own := fun same => by simp [Act.isTurnOf, same] at other
    exact adds.engine.stays numbered id different begun
  · have launches := (launches_perform_act h.recorded.orderly allowed plain
      fun own is => turns ⟨own, is⟩).engine
    exact ⟨launches.begun begun, fun _ => launches.progress numbered id begun⟩

/-- A run takes no more turns than its work has actions, and one more. -/
theorem Attested.turns_le {acts : List Act} (h : w.Attested) (begun : w.engine.hasBegun id)
    (known : w.engine.tasks[id.task]? = some task) (plain : ∀ a ∈ acts, a.isRedraw = false)
    (admitted : w.admits acts = true) :
    acts.countP (·.isTurnOf id) ≤ w.turnsLeft task.spec.work id := by
  induction acts generalizing w task with
  | nil => exact Nat.zero_le _
  | cons a acts ih =>
      obtain ⟨allowed, rest⟩ := (admits_cons ..).mp admitted
      obtain ⟨first, others⟩ := List.forall_mem_cons.mp plain
      obtain ⟨new, known', later⟩ := (h.leads allowed first).grows _ task known
      obtain ⟨begun', stays⟩ := h.keeps_begun begun allowed first
      have fewer := ih (h.perform allowed first) begun' known' others rest
      rw [later.spec] at fewer
      cases turns : a.isTurnOf id with
      | false =>
          rw [turnsLeft, stays turns] at fewer
          rw [List.countP_cons_of_neg (by simp [turns])]
          exact fewer
      | true =>
          obtain rfl := eq_turn_of_isTurnOf turns
          rw [List.countP_cons_of_pos turns]
          exact fewer.trans_lt (h.turnsLeft_turnRun known (of_decide_eq_true allowed).2)

end Acts

/-! ## 7. All histories -/

/-- **No panic leaks a run, but that of a call that is refused.**  Whatever is called and done, in
whatever order, with every hook, every handler and all work: a run in flight takes no more turns than
its work has actions, and one more.  And its work does not refuse its call exactly if each turn of the
run takes it further or to its end, whatever panics in that turn: then it has announced its end once
and finished once, whoever waited for it is told how it ended, its place is free and its panic is
counted; and if the work panics in that turn, the run ends as panicked. -/
theorem panics_contained_iff (config : Config) (subscribers : List Subscriber) (hook : Option Hook)
    (handler : Handler) {acts : List Act} (plain : ∀ a ∈ acts, a.isRedraw = false)
    (admitted : (create config subscribers hook handler).admits acts = true) :
    let w := (create config subscribers hook handler).after acts
    ∀ run ∈ w.engine.runs, ∃ task, w.engine.tasks[run.id.task]? = some task ∧
      (∀ later, (∀ a ∈ later, a.isRedraw = false) → w.admits later = true →
        later.countP (·.isTurnOf run.id) ≤ run.progress.turnsLeft task.spec.work + 1) ∧
      (w.able (.run run.id) = true →
        (task.spec.work.refuses run.id.number = false ↔ Contains task.spec run w (w.turnRun run.id))) := by
  intro w run mem
  have start := attested_create config subscribers hook handler
  have attested : w.Attested := (start.after plain admitted).1
  have begun := attested.recorded.numbered.inFlight run mem
  obtain ⟨task, known, -⟩ := attested.suits mem
  refine ⟨task, known, ?_, ?_⟩
  · intro later plain' admitted'
    rw [← turnsLeft_of_run? (attested.found mem)]
    exact attested.turns_le begun known plain' admitted'
  · intro able
    constructor
    · exact attested.contains mem known able
    · intro contains
      -- a run that is lost neither goes on nor has it come to its end
      by_contra refuses
      rw [Bool.not_eq_false] at refuses
      have lost := attested.lost_of_refuses mem known refuses
      rcases contains.ends with ⟨later, found, -⟩ | ⟨outcome, settles⟩
      · rw [lost.gone] at found
        cases found
      · obtain ⟨event, -, ends⟩ := settles.ends
        rw [lost.unended] at ends
        cases ends

/-- A task with a hook that panics before and after its first run. -/
def panicky (work : Work) : Spec :=
  { work, schedule := .onDemand, name := "job"
    hook := some (.noting "of the task" [1] [1] none none) }

/-- Somebody waits for the first run of that task, which has been launched. -/
def panickyActs (work : Work) : List Act :=
  [.add (panicky work), .start (.named "t"), .requestWaiting 0]

/-- The hook of the engine panics too, and so does the handler. -/
def panickyWorld (work : Work) : World :=
  (create {} [] (some (.noting "of the engine" [1] [1] none none)) (.noting none true)).after
    (panickyActs work)

def panickyRun : Run where
  id := ⟨0, 1⟩
  merged := false
  token := ((Token.named "t").child 0).child 1
  waiters := [⟨0, 0⟩]

/-- The hooks, the work and the handler panic, and the run comes to its end. -/
theorem panics_contained_iff_panicky :
    let w := panickyWorld (.plays [[.panic "no"]])
    w.engine.runs = [panickyRun] ∧ Settles panickyRun (.panicked "no") w (w.turnRun ⟨0, 1⟩) := by
  intro w
  have runs : w.engine.runs = [panickyRun] := by decide
  have mem : panickyRun ∈ w.engine.runs := by simp [runs]
  have plain : ∀ a ∈ panickyActs (.plays [[.panic "no"]]), a.isRedraw = false := by decide
  obtain ⟨task, known, -, contained⟩ := panics_contained_iff {} []
    (some (.noting "of the engine" [1] [1] none none)) (.noting none true) plain (by decide)
    panickyRun mem
  have is : w.engine.tasks[0]?.all (fun task => !task.spec.work.refuses 1 &&
      w.panics? task.spec panickyRun == some "no") = true := by decide
  have known : w.engine.tasks[0]? = some task := known
  rw [known, Option.all_some, Bool.and_eq_true, Bool.not_eq_true', beq_iff_eq] at is
  obtain ⟨calls, panics⟩ := is
  exact ⟨runs, ((contained (by decide)).mp calls).panicked "no" panics⟩

/-- The call of the work panics: the run is gone without an end, its place stays taken, no panic is
counted, and the caller is told that the engine is closed. -/
theorem refused_call_leaks_run :
    let w := panickyWorld (.refusesCall "no")
    let w' := w.turnRun ⟨0, 1⟩
    w.able (.run ⟨0, 1⟩) = true ∧ w'.engine.run? ⟨0, 1⟩ = none ∧
    (w'.engine.marks ⟨0, 1⟩).filter (·.isEnding) = [] ∧
    w'.engine.tasks.map (fun task => (task.running, task.panicCount)) = [(1, 0)] ∧
    w'.engine.isOpen = true ∧
    (w'.engine.delivery? ⟨0, 0⟩).map (·.result) = some (.error .closed) := by
  decide +kernel

end World

end TaskEngine
