/-
  TaskEngine/Proofs/Conduct.lean
  ==============================
  **What a run does to its engine.**

  In its turns a run leaves notes and announces itself, asks for runs by name, cancels tokens, has its
  progress recorded, and leaves.  None of this touches a schedule, the phase or another run, and no
  token is cancelled but those that its work names (`Engine.Minds`).  The time of a run is up when
  its work still waits by then (`World.timesOut`); then its own token is cancelled, and the end of a
  run cancels nothing (`World.minds_conclude`).
-/
import TaskEngine.Proofs.Acts
import TaskEngine.Proofs.Handouts

namespace TaskEngine

/-- Whether the work has the token cancelled in some call. -/
def Work.cancels (t : Token) (work : Work) : Bool := work.calls.any (·.contains (.cancel t))

theorem Work.cancels_of_mem {work : Work} {number : Nat} {t : Token}
    (mem : Action.cancel t ∈ clampedGet work.calls number) : work.cancels t = true := by
  have played : clampedGet work.calls number ∈ work.calls := by
    unfold clampedGet at mem ⊢
    cases listed : work.calls[number]? with
    | some actions => exact List.mem_of_getElem? listed
    | none =>
        cases last : work.calls.getLast? with
        | some actions => exact List.mem_of_getLast? last
        | none =>
            rw [listed, last] at mem
            cases mem
  exact List.any_eq_true.mpr ⟨_, played, List.contains_iff_mem.mpr mem⟩

/-- Whether the work of a task of that spec may cancel the token. -/
def ResolvedSpec.mayCancel (spec : ResolvedSpec) (t : Token) : Prop := spec.work.cancels t = true

instance (spec : ResolvedSpec) (t : Token) : Decidable (spec.mayCancel t) :=
  inferInstanceAs (Decidable (spec.work.cancels t = true))

/-- What a run of a task of that spec may have come to: what is left to do has nothing cancelled
that the work does not, and the time it may take is that of the spec. -/
def Progress.Suits (spec : ResolvedSpec) : Progress → Prop
  | .launched => True
  | .working _ started limit _ rest =>
      (∀ t, .cancel t ∈ rest → spec.mayCancel t) ∧
      limit = spec.timeout.map fun d => (d, started.later d)

namespace Engine

variable {may : Token → Prop} {spec : ResolvedSpec} {own : RunId} {e e' e'' : Engine}

/-! ## 1. A run and its engine -/

/-- What is known of every schedule. -/
def schedules (e : Engine) : List (Loop × Option Instant) := e.tasks.map fun t => (t.loop, t.nextRun)

/-- Run `own` minds its own business: nothing was cancelled but what may be, no schedule was
touched, and no run but run `own`, which has come to what suits the spec. -/
structure Minds (may : Token → Prop) (spec : ResolvedSpec) (own : RunId) (e e' : Engine) :
    Prop where
  allots : Allots e e'
  phase : e'.phase = e.phase
  cancelled : ∃ newer, e'.cancellation.cancelled = newer ++ e.cancellation.cancelled ∧
    ∀ t ∈ newer, may t
  schedules : e'.schedules = e.schedules
  stays : ∀ run ∈ e.runs, run.id ≠ own → run ∈ e'.runs
  progress : ∀ p, e'.progress? own = some p → e.progress? own = some p ∨ p.Suits spec

/-- Tokens are cancelled that may be, and nothing else happens. -/
theorem minds_of_runs (newer : List Token) (runToken : e'.runToken = e.runToken)
    (phase : e'.phase = e.phase) (cancelled : e'.cancellation =
      { e.cancellation with cancelled := newer ++ e.cancellation.cancelled })
    (allowed : ∀ t ∈ newer, may t) (schedules : e'.schedules = e.schedules)
    (runs : e'.runs = e.runs) : Minds may spec own e e' where
  allots := allots_of_runs runToken (by rw [cancelled]) (runs ▸ .refl _)
  phase := phase
  cancelled := ⟨newer, by rw [cancelled], allowed⟩
  schedules := schedules
  stays := fun _ mem _ => runs ▸ mem
  progress := fun _ found => .inl ((progress?_of_runs runs own).symm.trans found)

theorem Minds.refl (e : Engine) : Minds may spec own e e :=
  minds_of_runs [] rfl rfl rfl nofun rfl rfl

theorem Minds.trans (first : Minds may spec own e e') (second : Minds may spec own e' e'') :
    Minds may spec own e e'' := by
  obtain ⟨newer, cancelled, allowed⟩ := first.cancelled
  obtain ⟨newer', cancelled', allowed'⟩ := second.cancelled
  constructor
  case allots => exact first.allots.trans second.allots
  case phase => exact second.phase.trans first.phase
  case cancelled =>
    refine ⟨newer' ++ newer, by rw [cancelled', cancelled, List.append_assoc], ?_⟩
    intro t mem
    exact (List.mem_append.mp mem).elim (allowed' t) (allowed t)
  case schedules => exact second.schedules.trans first.schedules
  case stays => exact fun run mem other => second.stays run (first.stays run mem other) other
  case progress =>
    intro p found
    rcases second.progress p found with found | suits
    · exact first.progress p found
    · exact .inr suits

theorem minds_note (e : Engine) (n : Note) : Minds may spec own e (e.note n) :=
  minds_of_runs [] rfl rfl rfl nofun rfl rfl

theorem minds_announce (e : Engine) (event : Event) (task : Option TaskId) :
    Minds may spec own e (e.announce event task) :=
  minds_of_runs [] rfl rfl rfl nofun rfl rfl

theorem minds_deliver (e : Engine) (waiters : List WaiterId) (d : Delivery) :
    Minds may spec own e (e.deliver waiters d) :=
  minds_of_runs [] rfl rfl rfl nofun rfl rfl

theorem minds_cancel (e : Engine) {t : Token} (allowed : may t) :
    Minds may spec own e (e.cancel t) :=
  minds_of_runs [t] rfl rfl rfl
    (fun _ mem => List.mem_singleton.mp mem ▸ allowed) rfl rfl

theorem schedules_set {t : TaskId} {task new : TaskRecord} (known : e.tasks[t]? = some task)
    (same : (new.loop, new.nextRun) = (task.loop, task.nextRun)) :
    (e.tasks.set t new).map (fun task => (task.loop, task.nextRun)) = e.schedules :=
  map_set_eq_map known same

theorem minds_fold {t : TaskId} {task : TaskRecord} (known : e.tasks[t]? = some task)
    (waiter : Option WaiterId) : Minds may spec own e (e.updateTask t (·.fold waiter)) := by
  refine minds_of_runs [] rfl rfl rfl nofun ?_ rfl
  rw [Engine.schedules, updateTask, modify_eq_set_of_getElem? known]
  exact schedules_set known rfl

theorem minds_beginRun {t : TaskId} {task : TaskRecord} (known : e.tasks[t]? = some task)
    (merged : Bool) (waiters : List WaiterId) :
    Minds may spec own e (e.beginRun t merged waiters) := by
  have allots := allots_beginRun e t merged waiters
  rw [beginRun_eq known] at allots ⊢
  constructor
  case allots => exact allots
  case phase => rfl
  case cancelled => exact ⟨[], rfl, nofun⟩
  case schedules => exact schedules_set known rfl
  case stays => exact fun run mem _ => List.mem_append_left _ mem
  case progress =>
    intro p found
    obtain ⟨run, is, rfl⟩ := Option.map_eq_some_iff.mp found
    rw [run?, List.find?_append, Option.or_eq_some_iff] at is
    rcases is with old | ⟨-, new⟩
    · exact .inl (Option.map_eq_some_iff.mpr ⟨run, old, rfl⟩)
    · -- a run that begins has been launched and no more
      rw [List.mem_singleton.mp (List.mem_of_find?_eq_some new)]
      exact .inr trivial

theorem minds_request (e : Engine) (t : TaskId) (waiter : Option WaiterId) :
    Minds may spec own e (e.request t waiter).1 := by
  have step := e.request_step t waiter
  generalize e.request t waiter = answer at step ⊢
  cases step with
  | refused err => exact minds_note e _
  | skipped task known full => exact (minds_announce e _ _).trans (minds_note _ _)
  | merged task known admits willing full overlap =>
      exact ((minds_fold known waiter).trans (minds_announce _ _ _)).trans (minds_note _ _)
  | started task known admits willing room =>
      exact (minds_beginRun known false _).trans (minds_note _ _)

theorem minds_trigger (e : Engine) (name : String) : Minds may spec own e (e.trigger name).1 := by
  unfold trigger
  cases e.lookup? name with
  | none => exact .refl e
  | some t => exact minds_request e t none

theorem minds_setProgress (e : Engine) {p : Progress} (suits : p.Suits spec) :
    Minds may spec own e (e.setProgress own p) where
  allots := allots_setProgress e own p
  phase := rfl
  cancelled := ⟨[], rfl, nofun⟩
  schedules := rfl
  stays := fun run mem other => List.mem_map.mpr ⟨run, mem, if_neg other⟩
  progress := by
    intro q found
    rw [progress?, run?_setProgress] at found
    cases here : e.run? own with
    | none => rw [here] at found; cases found
    | some run =>
        obtain ⟨-, rfl⟩ := mem_of_run? here
        rw [here] at found
        obtain rfl : p = q := by simpa using found
        exact .inr suits

theorem minds_removeRun (e : Engine) : Minds may spec own e (e.removeRun own) where
  allots := allots_of_runs rfl rfl List.filter_sublist
  phase := rfl
  cancelled := ⟨[], rfl, nofun⟩
  schedules := rfl
  stays := fun run mem other => List.mem_filter.mpr ⟨mem, bne_iff_ne.mpr other⟩
  progress := by
    intro p found
    obtain ⟨run, is, -⟩ := Option.map_eq_some_iff.mp found
    obtain ⟨mem, same⟩ := mem_of_run? is
    exact absurd same (bne_iff_ne.mp (List.mem_filter.mp mem).2)

theorem minds_abandon (e : Engine) : Minds may spec own e (e.abandon own) := by
  unfold abandon
  split
  · exact (minds_removeRun e).trans (minds_deliver ..)
  · exact .refl e

theorem minds_conclude {run : Run} {task : TaskRecord} (known : e.tasks[run.id.task]? = some task)
    (outcome : Outcome) : Minds may spec run.id e (e.conclude run task outcome) := by
  have counted : Minds may spec run.id (e.removeRun run.id) { e.removeRun run.id with
      tasks := e.tasks.set run.id.task (task.conclude e.phase e.now outcome) } := by
    refine minds_of_runs [] rfl rfl rfl nofun (schedules_set known ?_) rfl
    rw [TaskRecord.conclude, TaskRecord.count_eq]
  exact (((minds_removeRun e).trans counted).trans (minds_note _ _)).trans
    (minds_deliver ..)

theorem minds_finish (e : Engine) (outcome : Outcome) :
    Minds may spec own e (e.finish own outcome) := by
  have step := e.finish_step own outcome
  generalize e.finish own outcome = after at step ⊢
  cases step with
  | unknown => exact .refl e
  | last run task found known settled =>
      obtain ⟨-, rfl⟩ := mem_of_run? found
      exact minds_conclude known outcome
  | closed run task found known owed closing =>
      obtain ⟨-, rfl⟩ := mem_of_run? found
      exact (minds_conclude known outcome).trans (minds_deliver ..)
  | again run task found known owed admits =>
      obtain ⟨-, rfl⟩ := mem_of_run? found
      exact (minds_conclude known outcome).trans
        (minds_beginRun (known_conclude known outcome) ..)

/-- Nothing is cancelled where nothing may be. -/
theorem Minds.cancelled_eq (h : Minds (fun _ => False) spec own e e') :
    e'.cancellation.cancelled = e.cancellation.cancelled := by
  obtain ⟨newer, cancelled, never⟩ := h.cancelled
  rw [cancelled, List.eq_nil_iff_forall_not_mem.mpr never, List.nil_append]

end Engine

namespace World

open Engine

variable {may : Token → Prop} {spec : ResolvedSpec} {w w' w'' : World} {own : RunId}
  {actions : List Action} {played : World × Halt}

/-! ## 2. Turns of runs -/

/-- In the world run `own` minds its own business in the engine. -/
def Minds (may : Token → Prop) (spec : ResolvedSpec) (own : RunId) (w w' : World) : Prop :=
  Engine.Minds may spec own w.engine w'.engine

theorem minds_of_engine (same : w'.engine = w.engine) : Minds may spec own w w' := by
  rw [Minds, same]
  exact .refl _

theorem Minds.refl (w : World) : Minds may spec own w w := minds_of_engine rfl

theorem Minds.trans (first : Minds may spec own w w') (second : Minds may spec own w' w'') :
    Minds may spec own w w'' :=
  Engine.Minds.trans first second

theorem minds_note (w : World) (n : Note) : Minds may spec own w (w.note n) :=
  Engine.minds_note w.engine n

theorem minds_trace (w : World) (task : String) (t : Trace) :
    Minds may spec own w (w.trace task t) :=
  minds_note w _

theorem minds_publishAbout (w : World) (t : TaskId) (event : Event) :
    Minds may spec own w (w.publishAbout t event) :=
  minds_announce w.engine event _

theorem minds_cancel (w : World) {t : Token} (allowed : may t) :
    Minds may spec own w (w.onEngine (·.cancel t)) :=
  Engine.minds_cancel w.engine allowed

theorem minds_triggerFor (w : World) (task : String) (target : Option String) :
    Minds may spec own w (w.triggerFor task target) := by
  cases target with
  | none => exact .refl w
  | some target =>
      have asked : Minds may spec own w { w with engine := (w.engine.trigger target).1 } :=
        minds_trigger w.engine target
      exact asked.trans (minds_trace ..)

theorem minds_guarded (w : World) (task callback : String) (panic : Option String) :
    Minds may spec own w (w.guarded task callback panic) := by
  cases panic with
  | none => exact .refl w
  | some info => exact minds_note w _

theorem minds_callBefore (w : World) (callback : Callback) (hook : Option Hook)
    (spec' : ResolvedSpec) (run : Run) :
    Minds may spec own w (w.callBefore callback hook spec' run) := by
  unfold callBefore
  split
  · exact .refl w
  · exact minds_note w _
  · exact (((minds_note w _).trans (minds_trace ..)).trans (minds_triggerFor ..)).trans
      (minds_guarded ..)

theorem minds_callAfter (w : World) (callback : Callback) (hook : Option Hook)
    (spec' : ResolvedSpec) (run : Run) (outcome : Outcome) :
    Minds may spec own w (w.callAfter callback hook spec' run outcome) := by
  unfold callAfter
  split
  · exact .refl w
  · exact minds_note w _
  · exact (((minds_note w _).trans (minds_trace ..)).trans (minds_triggerFor ..)).trans
      (minds_guarded ..)

theorem minds_handlerConduct (w : World) (task callback : String) (trigger : Option String)
    (panics : Bool) : Minds may spec own w (w.handlerConduct task callback trigger panics) :=
  (minds_triggerFor ..).trans (minds_guarded ..)

theorem minds_callHandler (w : World) (task : String) (run : RunId) (outcome : Outcome) :
    Minds may spec own w (w.callHandler task run outcome) := by
  cases outcome with
  | succeeded => exact .refl w
  | canceled err => exact .refl w
  | failed err =>
      unfold callHandler
      dsimp only
      split
      · exact (minds_note w _).trans (minds_note ..)
      · exact ((minds_note w _).trans (minds_trace ..)).trans (minds_handlerConduct ..)
  | panicked info =>
      unfold callHandler
      dsimp only
      split
      · exact (minds_note w _).trans (minds_note ..)
      · exact ((minds_note w _).trans (minds_trace ..)).trans (minds_handlerConduct ..)

/-- The end of a run cancels nothing. -/
theorem minds_conclude (w : World) (spec' : ResolvedSpec) (run : Run) (started : Instant)
    (outcome : Outcome) : Minds may spec run.id w (w.conclude spec' run started outcome) := by
  have shown : Minds may spec run.id w _ :=
    (minds_callAfter w .engineAfter w.hook spec' run outcome).trans
      (minds_callAfter _ .taskAfter spec'.hook spec' run outcome)
  have told := shown.trans (minds_callHandler _ spec'.name run.id outcome)
  exact (told.trans (minds_publishAbout ..)).trans (minds_finish _ outcome)

/-! ## 3. Work -/

/-- Work has been played that minds its own business, and what is left to do was there before and is
less. -/
structure Plays (may : Token → Prop) (spec : ResolvedSpec) (own : RunId) (actions : List Action)
    (w : World) (played : World × Halt) : Prop where
  minds : Minds may spec own w played.1
  rest : ∀ pause rest, played.2 = .paused pause rest →
    rest ⊆ actions ∧ rest.length < actions.length

theorem Plays.since (h : Plays may spec own actions w' played) (first : Minds may spec own w w') :
    Plays may spec own actions w played :=
  ⟨first.trans h.minds, h.rest⟩

theorem Plays.cons (h : Plays may spec own actions w played) (a : Action) :
    Plays may spec own (a :: actions) w played := by
  refine ⟨h.minds, fun pause rest halts => ?_⟩
  obtain ⟨there, less⟩ := h.rest pause rest halts
  exact ⟨List.subset_cons_of_subset a there, Nat.lt_succ_of_lt less⟩

theorem plays_paused (h : Minds may spec own w w') (a : Action) (pause : Pause)
    (rest : List Action) : Plays may spec own (a :: rest) w (w', .paused pause rest) := by
  refine ⟨h, fun _ _ halts => ?_⟩
  cases halts
  exact ⟨List.subset_cons_self a rest, Nat.lt_succ_self _⟩

theorem plays_answered (actions : List Action) (w : World) (result : Except WorkError Unit) :
    Plays may spec own actions w (w, .answered result) :=
  ⟨.refl w, nofun⟩

theorem plays_panicked (actions : List Action) (w : World) (info : String) :
    Plays may spec own actions w (w, .panicked info) :=
  ⟨.refl w, nofun⟩

theorem plays_play (id : RunId) (task : String) (token : Token) (actions : List Action) (w : World)
    (allowed : ∀ t, Action.cancel t ∈ actions → may t) :
    Plays may spec own actions w (play id task token actions w) := by
  induction actions generalizing w with
  | nil => exact plays_answered _ w _
  | cons a rest ih =>
      have goesOn {w' : World} (first : Minds may spec own w w') :
          Plays may spec own (a :: rest) w (play id task token rest w') :=
        ((ih w' fun t mem => allowed t (List.mem_cons_of_mem a mem)).since first).cons a
      cases a with
      | succeed => exact plays_answered _ w _
      | answer err => exact plays_answered _ w _
      | panic info => exact plays_panicked _ w _
      | sleep d =>
          unfold play
          dsimp only
          split
          · exact goesOn (.refl w)
          · exact plays_paused (.refl w) _ _ rest
      | sleepOrCancel d =>
          unfold play
          dsimp only
          split
          · exact plays_answered _ w _
          · split
            · exact goesOn (.refl w)
            · exact plays_paused (.refl w) _ _ rest
      | gate =>
          unfold play
          dsimp only
          split
          · exact goesOn (minds_of_engine rfl)
          · have joined : Minds may spec own w (w.joinLine id) := minds_of_engine rfl
            exact plays_paused joined _ _ rest
      | untilCancel =>
          unfold play
          dsimp only
          split
          · exact plays_answered _ w _
          · exact plays_paused (.refl w) _ _ rest
      | awaitCancel =>
          unfold play
          dsimp only
          split
          · exact goesOn (.refl w)
          · exact plays_paused (.refl w) _ _ rest
      | check =>
          unfold play
          dsimp only
          split
          · exact plays_answered _ w _
          · exact goesOn (.refl w)
      | trigger target => exact goesOn (minds_triggerFor ..)
      | cancel t => exact goesOn (minds_cancel w (allowed t List.mem_cons_self))
      | state target => exact goesOn (minds_trace ..)
      | watchToken => exact goesOn (minds_of_engine rfl)

theorem plays_resume (w : World) (task : String) (run : Run) (pause : Pause) (rest : List Action)
    (allowed : ∀ t, Action.cancel t ∈ rest → may t) :
    Plays may spec own rest w (w.resume task run pause rest) := by
  have goesOn (w' : World) (first : Minds may spec own w w') :
      Plays may spec own rest w (play run.id task run.token rest w') :=
    (plays_play run.id task run.token rest w' allowed).since first
  cases pause with
  | sleep due => exact goesOn w (.refl w)
  | sleepOrCancel due =>
      unfold resume
      dsimp only
      split
      · exact plays_answered _ w _
      · exact goesOn w (.refl w)
  | gate => exact goesOn (w.passGate run.id) (minds_of_engine rfl)
  | cancel more =>
      cases more with
      | true => exact goesOn w (.refl w)
      | false => exact plays_answered _ w _

/-! ## 4. Turns -/

/-- Whether the time of a run is up and its work does not go on. -/
def timesOut (w : World) (run : Run) : Bool :=
  match run.progress with
  | .launched => false
  | .working _ _ limit pause _ => !w.pauseOver run pause && w.timeIsUp limit

section Turns

variable {run : Run}

theorem minds_afterPlay (plays : Plays may spec run.id actions w played)
    (within : ∀ t, Action.cancel t ∈ actions → spec.mayCancel t) (call : Nat) (started : Instant) :
    Minds may spec run.id w (played.1.afterPlay spec run call started
      (spec.timeout.map fun d => (d, started.later d)) played.2) := by
  obtain ⟨played, halt⟩ := played
  refine plays.minds.trans ?_
  cases halt with
  | paused pause rest =>
      exact minds_setProgress _ ⟨fun t mem => within t ((plays.rest pause rest rfl).1 mem), rfl⟩
  | answered result => exact (minds_trace ..).trans (minds_conclude ..)
  | panicked info => exact (minds_trace ..).trans (minds_conclude ..)

theorem minds_callWork (w : World) (spec : ResolvedSpec) (run : Run) :
    Minds spec.mayCancel spec run.id w (w.callWork spec run) := by
  unfold callWork
  split
  · exact minds_abandon w.engine
  · have within (number : Nat) (t : Token)
        (mem : Action.cancel t ∈ Work.clampedGet spec.work.calls number) : spec.mayCancel t :=
      Work.cancels_of_mem mem
    have entered (f : Workshop → Workshop) (t : Trace) : Minds spec.mayCancel spec run.id w
        (((w.updateWorkshop run.id.task f).note (.called .work run.id)).trace spec.name t) :=
      ((minds_of_engine rfl).trans (minds_note _ _)).trans (minds_trace ..)
    exact minds_afterPlay ((plays_play run.id spec.name run.token _ _ (within _)).since
      (entered ..)) (within _) ..

theorem minds_launch (w : World) (spec : ResolvedSpec) (run : Run) :
    Minds spec.mayCancel spec run.id w (w.launch spec run) :=
  (((minds_callBefore ..).trans (minds_callBefore ..)).trans (minds_publishAbout ..)).trans
    (minds_callWork ..)

/-- What is done when the time of a run is up, before the run comes to its end. -/
def dropWork (w : World) (spec : ResolvedSpec) (run : Run) (call : Nat) : World :=
  ((w.leaveLine run.id).trace spec.name (.workEnd call .dropped)).onEngine (·.cancel run.token)

variable {task : TaskRecord}

/-- A turn in which its time is not up cancels what the work says. -/
theorem minds_turnRun (found : w.engine.run? run.id = some run)
    (known : w.engine.tasks[run.id.task]? = some task) (suits : run.progress.Suits task.spec)
    (goesOn : w.timesOut run = false) :
    Minds task.spec.mayCancel task.spec run.id w (w.turnRun run.id) := by
  simp only [turnRun, found, known]
  cases progress : run.progress with
  | launched => exact minds_launch ..
  | working call started limit pause rest =>
      rw [progress] at suits
      obtain ⟨within, rfl⟩ := suits
      simp only [timesOut, progress, Bool.and_eq_false_iff, Bool.not_eq_false'] at goesOn
      simp only [continueRun]
      split
      · exact minds_afterPlay (plays_resume w task.spec.name run pause rest within) within ..
      · rename_i waits
        have early := goesOn.resolve_left waits
        cases timeout : task.spec.timeout with
        | none => exact .refl w
        | some d =>
            rw [timeout] at early
            have early : (started.later d).isDue w.now = false := early
            simp only [Option.map_some, early, Bool.false_eq_true, if_false]
            exact .refl w

/-- When its time is up the token of the run is cancelled, and the run has failed, whether or not
cancellations are reported. -/
theorem turnRun_of_timesOut (found : w.engine.run? run.id = some run)
    (known : w.engine.tasks[run.id.task]? = some task) (suits : run.progress.Suits task.spec)
    (timesOut : w.timesOut run = true) : ∃ call started pause rest limit,
      run.progress = .working call started (some (limit, started.later limit)) pause rest ∧
      task.spec.timeout = some limit ∧
      w.turnRun run.id = (w.dropWork task.spec run call).conclude task.spec run started
        (.failed (.timeout limit)) := by
  simp only [turnRun, found, known]
  cases progress : run.progress with
  | launched =>
      rw [World.timesOut, progress] at timesOut
      cases timesOut
  | working call started limit pause rest =>
      rw [progress] at suits
      obtain ⟨-, rfl⟩ := suits
      simp only [World.timesOut, progress, Bool.and_eq_true, Bool.not_eq_true'] at timesOut
      obtain ⟨waits, up⟩ := timesOut
      cases timeout : task.spec.timeout with
      | none =>
          rw [timeout] at up
          cases up
      | some d =>
          rw [timeout] at up
          refine ⟨call, started, pause, rest, d, rfl, rfl, ?_⟩
          have due : (started.later d).isDue w.now = true := up
          simp only [continueRun, waits, Bool.false_eq_true, if_false, Option.map_some, due, if_true]
          rfl

end Turns

end World

end TaskEngine
