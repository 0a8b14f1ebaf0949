/-
  TaskEngine/Proofs/Acts.lean
  ===========================
  **What happens in a world, act by act.**

  An act names one thing that happens in a world, so that the same things can be made to happen in
  two worlds.  Acts are the steps of `Worlds.lean` (`World.step_iff`), and one more: it may be decided
  anew when callbacks panic (`World.redraw`).  A callback is called at most once in a turn, so with
  such decisions between the turns every single call may panic or not.

  After every list of acts, each run that has begun stands somewhere on its course
  (`World.recorded_after`).
-/
import TaskEngine.Proofs.Courses

namespace TaskEngine

/-! ## 1. Acts -/

/-- When callbacks panic: the hook of the engine and the hooks of tasks for runs of these numbers,
before and after them, and the handler or not. -/
structure Mood where
  engineBefore : List Nat := []
  engineAfter : List Nat := []
  taskBefore : List Nat := []
  taskAfter : List Nat := []
  handler : Bool := false

/-- The hook, panicking for runs of these numbers. -/
def Hook.panicking (before after : List Nat) : Hook → Hook
  | .silent => .silent
  | .noting id _ _ triggerBefore triggerAfter => .noting id before after triggerBefore triggerAfter

def Handler.panicking (panics : Bool) : Handler → Handler
  | .logging => .logging
  | .noting trigger _ => .noting trigger panics

def ResolvedSpec.panicking (before after : List Nat) (s : ResolvedSpec) : ResolvedSpec :=
  { s with hook := s.hook.map (·.panicking before after) }

namespace World

open Engine

variable {w w' w'' : World} {own : RunId} {more : List Mark}

/-- From now on callbacks panic like this. -/
def redraw (w : World) (mood : Mood) : World :=
  { w with
    engine := w.engine.updateTasks fun t =>
      { t with spec := t.spec.panicking mood.taskBefore mood.taskAfter }
    hook := w.hook.map (·.panicking mood.engineBefore mood.engineAfter)
    handler := w.handler.panicking mood.handler }

/-- One thing that happens in a world. -/
inductive Act where
  | turn (p : Process)
  | clock (now : Instant)
  | add (spec : Spec)
  | start (token : Token)
  | cancel (token : Token)
  | request (t : TaskId)
  | trigger (name : String)
  | requestWaiting (t : TaskId)
  | detach (waiter : WaiterId)
  | release (t : TaskId) (permits : Nat)
  | callShutdown (token : Option Token) (blocking : Bool)
  | callWait (t : TaskId) (limit : WaitLimit)
  | callWaitByName (name : String) (limit : WaitLimit)
  | turnCall (id : Nat)
  | abortCall (id : Nat)
  | removeCall (id : Nat)
  /-- It is decided anew when callbacks panic. -/
  | redraw (mood : Mood)

def Act.isRedraw : Act → Bool
  | .redraw _ => true
  | _ => false

def perform (w : World) : Act → World
  | .turn p => turn p w
  | .clock now => machine.setNow now w
  | .add spec => (w.add spec).1
  | .start token => { w with engine := (w.engine.start token).1 }
  | .cancel token => w.onEngine (·.cancel token)
  | .request t => { w with engine := (w.engine.request t none).1 }
  | .trigger name => { w with engine := (w.engine.trigger name).1 }
  | .requestWaiting t => { w with engine := (w.engine.requestWaiting t).1 }
  | .detach waiter => w.onEngine (·.detach waiter)
  | .release t permits => w.release t permits
  | .callShutdown token blocking => (w.callShutdown token blocking).1
  | .callWait t limit => (w.callWait t limit).1
  | .callWaitByName name limit => (w.callWaitByName name limit).1
  | .turnCall id => w.turnCall id
  | .abortCall id => w.abortCall id
  | .removeCall id => w.removeCall id
  | .redraw mood => w.redraw mood

/-- Whether an act is possible: only a process that is able takes a turn, and time does not run
backwards. -/
def allows (w : World) : Act → Bool
  | .turn p => p ∈ w.live ∧ w.able p = true
  | .clock now => w.now.ns ≤ now.ns
  | _ => true

def after (w : World) (acts : List Act) : World := acts.foldl perform w

/-- Whether every act of a list is possible when its turn comes. -/
def admits : World → List Act → Bool
  | _, [] => true
  | w, a :: acts => w.allows a && (w.perform a).admits acts

theorem admits_cons (w : World) (a : Act) (acts : List Act) :
    w.admits (a :: acts) = true ↔ w.allows a = true ∧ (w.perform a).admits acts = true :=
  Bool.and_eq_true_iff

/-- What every possible act keeps, every list of possible acts keeps. -/
theorem invariant_after {P : World → Prop}
    (keeps : ∀ (w : World) (a : Act), w.allows a = true → P w → P (w.perform a))
    {w : World} {acts : List Act} (admitted : w.admits acts = true) (h : P w) :
    P (w.after acts) := by
  induction acts generalizing w with
  | nil => exact h
  | cons a acts ih =>
      obtain ⟨allowed, rest⟩ := (admits_cons ..).mp admitted
      exact ih rest (keeps w a allowed h)

/-- But for new decisions about panics, acts are the steps of worlds. -/
theorem step_iff : Step w w' ↔ ∃ a : Act, a.isRedraw = false ∧ w.allows a = true ∧ w.perform a = w' := by
  constructor
  · intro step
    cases step with
    | machine step =>
        cases step with
        | turn p live able => exact ⟨.turn p, rfl, decide_eq_true ⟨live, able⟩, rfl⟩
        | clock now later => exact ⟨.clock now, rfl, decide_eq_true later, rfl⟩
    | add spec => exact ⟨.add spec, rfl, rfl, rfl⟩
    | start token => exact ⟨.start token, rfl, rfl, rfl⟩
    | cancel token => exact ⟨.cancel token, rfl, rfl, rfl⟩
    | request t => exact ⟨.request t, rfl, rfl, rfl⟩
    | trigger name => exact ⟨.trigger name, rfl, rfl, rfl⟩
    | requestWaiting t => exact ⟨.requestWaiting t, rfl, rfl, rfl⟩
    | detach waiter => exact ⟨.detach waiter, rfl, rfl, rfl⟩
    | release t permits => exact ⟨.release t permits, rfl, rfl, rfl⟩
    | callShutdown token blocking => exact ⟨.callShutdown token blocking, rfl, rfl, rfl⟩
    | callWait t limit => exact ⟨.callWait t limit, rfl, rfl, rfl⟩
    | callWaitByName name limit => exact ⟨.callWaitByName name limit, rfl, rfl, rfl⟩
    | turnCall id => exact ⟨.turnCall id, rfl, rfl, rfl⟩
    | abortCall id => exact ⟨.abortCall id, rfl, rfl, rfl⟩
    | removeCall id => exact ⟨.removeCall id, rfl, rfl, rfl⟩
  · rintro ⟨a, plain, allowed, rfl⟩
    cases a with
    | turn p =>
        obtain ⟨live, able⟩ := of_decide_eq_true allowed
        exact .machine (Machine.Step.turn (m := machine) w p live able)
    | clock now => exact .machine (Machine.Step.clock (m := machine) w now (of_decide_eq_true allowed))
    | add spec => exact .add w spec
    | start token => exact .start w token
    | cancel token => exact .cancel w token
    | request t => exact .request w t
    | trigger name => exact .trigger w name
    | requestWaiting t => exact .requestWaiting w t
    | detach waiter => exact .detach w waiter
    | release t permits => exact .release w t permits
    | callShutdown token blocking => exact .callShutdown w token blocking
    | callWait t limit => exact .callWait w t limit
    | callWaitByName name limit => exact .callWaitByName w name limit
    | turnCall id => exact .turnCall w id
    | abortCall id => exact .abortCall w id
    | removeCall id => exact .removeCall w id
    | redraw mood => cases plain

/-- So a list of acts is a sequence of steps. -/
theorem steps_after {acts : List Act} (plain : ∀ a ∈ acts, a.isRedraw = false)
    (admitted : w.admits acts = true) : Relation.ReflTransGen Step w (w.after acts) := by
  induction acts generalizing w with
  | nil => exact .refl
  | cons a acts ih =>
      obtain ⟨allowed, rest⟩ := (admits_cons ..).mp admitted
      obtain ⟨first, others⟩ := List.forall_mem_cons.mp plain
      exact .head (step_iff.mpr ⟨a, first, allowed, rfl⟩) (ih others rest)

/-! ## 2. Acts that are not turns of runs -/

theorem launches_leaveIfAnswered (e : Engine) (waiter : WaiterId) (stage : CallStage) :
    e.Launches (leaveIfAnswered e waiter stage) := by
  unfold leaveIfAnswered
  split
  · split
    · exact .refl e
    · exact launches_perform (m := .detach waiter) rfl rfl
  · exact .refl e
  · exact .refl e

theorem launches_callShutdown (w : World) (token : Option Token) (blocking : Bool) :
    Launches w (w.callShutdown token blocking).1 := by
  cases token with
  | none => exact ⟨launches_perform (m := .shutdown ..) rfl rfl, rfl⟩
  | some t => exact ⟨launches_perform (m := .shutdown (.token t) .zero) rfl rfl, rfl⟩

theorem launches_callWait (w : World) (t : TaskId) (limit : WaitLimit) :
    Launches w (w.callWait t limit).1 := by
  have asked := launches_requestWaiting w.engine t
  unfold callWait
  generalize w.engine.requestWaiting t = answer at asked
  obtain ⟨engine, waiter, result⟩ := answer
  cases result with
  | error err => exact ⟨asked, rfl⟩
  | ok admission => exact ⟨asked.trans (launches_leaveIfAnswered ..), rfl⟩

theorem launches_callWaitByName (w : World) (name : String) (limit : WaitLimit) :
    Launches w (w.callWaitByName name limit).1 := by
  unfold callWaitByName
  split
  · exact launches_callWait ..
  · exact launches_of_engine rfl rfl

theorem launches_turnCall (orderly : w.Orderly) (id : Nat) : Launches w (w.turnCall id) := by
  unfold turnCall
  cases found : w.call? id with
  | none => exact .refl w
  | some c =>
      have mem : c ∈ w.calls := List.mem_of_find?_eq_some found
      dsimp only
      split
      · -- it was given up
        unfold dropCall
        split
        · exact ⟨launches_perform (m := .detach _) rfl rfl, rfl⟩
        · exact launches_of_engine rfl rfl
        · exact launches_of_engine rfl rfl
      · split
        · rename_i s stage
          exact ⟨launches_perform (m := .awaitShutdown s) rfl (orderly c mem s stage), rfl⟩
        · exact ⟨launches_leaveIfAnswered .., rfl⟩
        · exact .refl w

theorem launches_turnSentinel (w : World) (id : Nat) : Launches w (w.turnSentinel id) := by
  unfold turnSentinel
  split
  · exact .refl w
  · split
    · have ended : Launches w { w with sentinels := w.sentinels.filter (·.id != id) } :=
        launches_of_engine rfl rfl
      exact ended.trans (Errand.trace ..).launches
    · exact .refl w

theorem launches_add (w : World) (spec : Spec) : Launches w (w.add spec).1 := by
  have added := launches_perform (e := w.engine) (m := .add spec) rfl rfl
  rw [Engine.perform] at added
  unfold add
  split
  · rename_i answer
    rw [answer] at added
    exact ⟨added, rfl⟩
  · rename_i answer
    rw [answer] at added
    exact ⟨added, rfl⟩

/-- Whatever is not a turn of a run only launches runs. -/
theorem launches_perform_act {a : Act} (orderly : w.Orderly) (allowed : w.allows a = true)
    (plain : a.isRedraw = false) (other : ∀ id, a ≠ .turn (.run id)) : Launches w (w.perform a) := by
  have moves {m : Move} (leaves : m.leavesRuns = true) (allowed : w.engine.allows m = true) :
      Launches w (w.onEngine (·.perform m)) := ⟨launches_perform leaves allowed, rfl⟩
  cases a with
  | turn p =>
      obtain ⟨-, able⟩ := of_decide_eq_true allowed
      cases p with
      | worker i => exact moves (m := .work i) rfl rfl
      | pump => exact ⟨launches_turnPump .., rfl⟩
      | watcher => exact moves (m := .watch) rfl able
      | schedule t => exact ⟨launches_turnLoop .., rfl⟩
      | run id => exact absurd rfl (other id)
      | call id => exact launches_turnCall orderly id
      | sentinel id => exact launches_turnSentinel ..
  | clock now => exact moves (m := .clock now) rfl allowed
  | add spec => exact launches_add ..
  | start token => exact moves (m := .start token) rfl rfl
  | cancel token => exact moves (m := .cancel token) rfl rfl
  | request t => exact ⟨launches_request .., rfl⟩
  | trigger name => exact ⟨launches_trigger .., rfl⟩
  | requestWaiting t => exact ⟨launches_requestWaiting .., rfl⟩
  | detach waiter => exact moves (m := .detach waiter) rfl rfl
  | release t permits => exact (Errand.workshop ..).launches
  | callShutdown token blocking => exact launches_callShutdown ..
  | callWait t limit => exact launches_callWait ..
  | callWaitByName name limit => exact launches_callWaitByName ..
  | turnCall id => exact launches_turnCall orderly id
  | abortCall id => exact launches_of_engine rfl rfl
  | removeCall id => exact launches_of_engine rfl rfl
  | redraw mood => cases plain

/-! ## 3. Every run stands somewhere on its course -/

section Redrawn

variable (hook : Option Hook) (spec : ResolvedSpec) (id : RunId) (before after before' after' : List Nat)

theorem opening_panicking : opening (hook.map (·.panicking before after))
    (spec.panicking before' after') id = opening hook spec id := by
  simp only [opening, ResolvedSpec.panicking, Option.map_map, Function.comp_def]

theorem closing_panicking (outcome : Outcome) (elapsed : Duration) :
    closing (hook.map (·.panicking before after)) (spec.panicking before' after') id outcome elapsed =
      closing hook spec id outcome elapsed := by
  simp only [closing, ResolvedSpec.panicking, Option.map_map, Function.comp_def]

end Redrawn

/-- When callbacks panic makes no difference to the course of a run. -/
theorem standing_panicking {hook : Option Hook} {spec : ResolvedSpec} {id : RunId}
    {progress : Option Progress} {marks : List Mark} (h : Standing hook spec id progress marks)
    (before after before' after' : List Nat) :
    Standing (hook.map (·.panicking before after)) (spec.panicking before' after') id progress
      marks := by
  cases h with
  | launched => exact .launched
  | working calls call started limit pause rest =>
      have calls : (spec.panicking before' after').work.refuses id.number = false := calls
      rw [← opening_panicking hook spec id before after before' after']
      exact .working calls ..
  | ended calls outcome elapsed fits =>
      have calls : (spec.panicking before' after').work.refuses id.number = false := calls
      rw [← opening_panicking hook spec id before after before' after',
        ← closing_panicking hook spec id before after before' after']
      exact .ended calls outcome elapsed fits
  | lost refuses =>
      rw [← opening_panicking hook spec id before after before' after']
      exact .lost refuses

/-- The marks of a run are those of its course so far. -/
def Stands (w : World) (id : RunId) : Prop :=
  ∃ task, w.engine.tasks[id.task]? = some task ∧
    Standing w.hook task.spec id (w.engine.progress? id) (w.engine.marks id)

theorem stands_of_same {id : RunId} (stands : w.Stands id) (grows : Grows w.engine w'.engine)
    (hook : w'.hook = w.hook) (progress : w'.engine.progress? id = w.engine.progress? id)
    (marks : w'.engine.marks id = w.engine.marks id) : w'.Stands id := by
  obtain ⟨task, known, standing⟩ := stands
  obtain ⟨new, known', later⟩ := grows _ task known
  refine ⟨new, known', ?_⟩
  rw [hook, later.spec, progress, marks]
  exact standing

theorem stands_of_launched {id : RunId} (numbered : w.engine.Numbered) (begun : w.engine.hasBegun id)
    (launched : w.engine.progress? id = some .launched) (unmarked : w.engine.marks id = []) :
    w.Stands id := by
  obtain ⟨task, known, -⟩ := numbered.begun id begun
  refine ⟨task, known, ?_⟩
  rw [launched, unmarked]
  exact .launched

/-- Every run that has begun stands somewhere on its course, and no other run has left a mark. -/
structure Recorded (w : World) : Prop where
  orderly : w.Orderly
  numbered : w.engine.Numbered
  unmarked : ∀ id, ¬w.engine.hasBegun id → w.engine.marks id = []
  stands : ∀ id, w.engine.hasBegun id → w.Stands id

theorem recorded_create (config : Config) (subscribers : List Subscriber) (hook : Option Hook)
    (handler : Handler) : (create config subscribers hook handler).Recorded :=
  ⟨orderly_create config subscribers hook handler, numbered_create config subscribers,
    fun _ _ => rfl, fun _ ⟨_, mem, _⟩ => absurd mem List.not_mem_nil⟩

theorem Recorded.launches (h : w.Recorded) (orderly : w'.Orderly) (launches : Launches w w') :
    w'.Recorded := by
  obtain ⟨launches, hook⟩ := launches
  refine ⟨orderly, launches.numbered h.numbered, ?_, ?_⟩
  · intro id fresh
    rw [launches.marks]
    exact h.unmarked id fun begun => fresh (launches.begun begun)
  · intro id begun
    by_cases already : w.engine.hasBegun id
    · exact stands_of_same (h.stands id already) launches.grows hook
        (launches.progress h.numbered id already) (launches.marks id)
    · exact stands_of_launched (launches.numbered h.numbered) begun
        (launches.launched h.numbered id already begun)
        ((launches.marks id).trans (h.unmarked id already))

theorem Recorded.takes {task : TaskRecord} (h : w.Recorded) (orderly : w'.Orderly)
    (known : w.engine.tasks[own.task]? = some task) (begun : w.engine.hasBegun own)
    (takes : Takes w.hook task.spec own (w.engine.progress? own) (w.engine.marks own) w w') :
    w'.Recorded := by
  obtain ⟨more, becomes, ⟨adds, hook⟩, -, standing⟩ := takes
  refine ⟨orderly, adds.numbered h.numbered, ?_, ?_⟩
  · intro id fresh
    have other : id ≠ own := by
      rintro rfl
      exact fresh (adds.begun id begun)
    rw [adds.unmarked id other]
    exact h.unmarked id fun begun => fresh (adds.begun id begun)
  · intro id begun'
    by_cases same : id = own
    · subst same
      obtain ⟨new, known', later⟩ := adds.grows _ task known
      refine ⟨new, known', ?_⟩
      rw [hook, later.spec, adds.progress h.numbered begun, adds.marks]
      exact standing
    · by_cases already : w.engine.hasBegun id
      · exact stands_of_same (h.stands id already) adds.grows hook
          (adds.stays h.numbered id same already) (adds.unmarked id same)
      · exact stands_of_launched (adds.numbered h.numbered) begun'
          (adds.launched h.numbered id same already begun')
          ((adds.unmarked id same).trans (h.unmarked id already))

/-- A turn takes a run in flight further on its course. -/
theorem Recorded.takes_turnRun (h : w.Recorded) (flying : (w.engine.run? own).isSome = true) :
    w.engine.hasBegun own ∧ ∃ task, w.engine.tasks[own.task]? = some task ∧
      Takes w.hook task.spec own (w.engine.progress? own) (w.engine.marks own) w (w.turnRun own) := by
  obtain ⟨run, found⟩ := Option.isSome_iff_exists.mp flying
  obtain ⟨mem, rfl⟩ := mem_of_run? found
  have begun := h.numbered.inFlight run mem
  have progress : w.engine.progress? run.id = some run.progress := by
    rw [progress?, found]
    rfl
  obtain ⟨task, known, standing⟩ := h.stands run.id begun
  have boards : w.Boards w.hook task.spec run := ⟨⟨flying, task, known, rfl⟩, h.numbered, rfl⟩
  refine ⟨begun, task, known, ?_⟩
  simp only [World.turnRun, found, known]
  rw [progress] at standing ⊢
  generalize w.engine.marks run.id = marks at standing ⊢
  generalize run.progress = now at standing ⊢
  cases standing with
  | launched => exact takes_launch boards
  | working calls call started limit pause rest => exact takes_continueRun boards calls ..

theorem turnRun_of_absent (absent : w.engine.run? own = none) : w.turnRun own = w := by
  simp only [World.turnRun, absent]

theorem Recorded.turnRun (h : w.Recorded) (orderly : (w.turnRun own).Orderly) :
    (w.turnRun own).Recorded := by
  cases found : w.engine.run? own with
  | none =>
      rw [turnRun_of_absent found]
      exact h
  | some run =>
      obtain ⟨begun, task, known, takes⟩ := h.takes_turnRun (Option.isSome_of_eq_some found)
      exact h.takes orderly known begun takes

theorem Recorded.redraw (h : w.Recorded) (mood : Mood) : (w.redraw mood).Recorded := by
  have known (t : TaskId) {task : TaskRecord} (known : w.engine.tasks[t]? = some task) :
      (w.redraw mood).engine.tasks[t]? =
        some { task with spec := task.spec.panicking mood.taskBefore mood.taskAfter } := by
    simp [World.redraw, updateTasks, known]
  refine ⟨h.orderly, ⟨?_, h.numbered.inFlight⟩, h.unmarked, ?_⟩
  · intro id begun
    obtain ⟨task, found, below⟩ := h.numbered.begun id begun
    exact ⟨_, known id.task found, below⟩
  · intro id begun
    obtain ⟨task, found, standing⟩ := h.stands id begun
    exact ⟨_, known id.task found, standing_panicking standing ..⟩

/-- Every act keeps the records of all runs. -/
theorem Recorded.perform {a : Act} (h : w.Recorded) (allowed : w.allows a = true) :
    (w.perform a).Recorded := by
  cases redrawn : a.isRedraw with
  | true =>
      cases a with
      | redraw mood => exact h.redraw mood
      | _ => cases redrawn
  | false =>
      have orderly := (step_iff.mpr ⟨a, redrawn, allowed, rfl⟩).orderly h.orderly
      by_cases own : ∃ id, a = .turn (.run id)
      · obtain ⟨id, rfl⟩ := own
        exact h.turnRun orderly
      · have other : ∀ id, a ≠ .turn (.run id) := fun id is => own ⟨id, is⟩
        exact h.launches orderly (launches_perform_act h.orderly allowed redrawn other)

theorem recorded_after (config : Config) (subscribers : List Subscriber) (hook : Option Hook)
    (handler : Handler) {acts : List Act}
    (admitted : (create config subscribers hook handler).admits acts = true) :
    ((create config subscribers hook handler).after acts).Recorded :=
  invariant_after (fun _ _ allowed h => h.perform allowed) admitted (recorded_create ..)

end World

end TaskEngine
