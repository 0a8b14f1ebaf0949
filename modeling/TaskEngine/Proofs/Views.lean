/-
  TaskEngine/Proofs/Views.lean
  ============================
  **What an engine does does not depend on everything in it.**

  A view leaves out of an engine some of the waiting callers, some notes, and part of what hooks do.
  No engine function looks at any of these to decide what to do: engines that look alike through a
  view look alike after whatever happens to both (`View.Same.perform`).  So what is left out makes no
  difference to what is seen.

  Each function has a lemma that says so, named after it.  It compares the function on an engine with
  the function on the view of that engine (`View.Respects`), which is enough: two engines that look
  alike have one view.
-/
import TaskEngine.Proofs.Moves

namespace TaskEngine

/-- What is looked at of an engine: of the specs, of the waiting callers, and of the notes. -/
structure View where
  spec : ResolvedSpec → ResolvedSpec
  sees : WaiterId → Bool
  reads : Note → Bool
  hooksOnly : ∀ s, spec s = { s with hook := (spec s).hook }
  settled : ∀ s, spec (spec s) = spec s

namespace View

variable {v : View}

def task (v : View) (t : TaskRecord) : TaskRecord :=
  { t with spec := v.spec t.spec, parked := t.parked.filter v.sees }

def run (v : View) (r : Run) : Run := { r with waiters := r.waiters.filter v.sees }

def engine (v : View) (e : Engine) : Engine :=
  { e with
    tasks := e.tasks.map v.task
    runs := e.runs.map v.run
    mail := e.mail.filter fun p => v.sees p.1
    journal := e.journal.filter fun entry => v.reads entry.note }

/-- The engines look alike. -/
def Same (v : View) (e e' : Engine) : Prop := v.engine e = v.engine e'

/-- What a function makes of an engine looks like what it makes of the view of that engine. -/
def Respects (v : View) (f : Engine → Engine) : Prop := ∀ e, v.Same (f (v.engine e)) (f e)

/-- Besides, the answers are the same. -/
def Answers {α : Type} (v : View) (f : Engine → Engine × α) : Prop :=
  ∀ e, v.Same (f (v.engine e)).1 (f e).1 ∧ (f (v.engine e)).2 = (f e).2

theorem Same.refl (e : Engine) : v.Same e e := rfl

theorem Same.symm {e e' : Engine} (h : v.Same e e') : v.Same e' e := Eq.symm h

theorem Same.trans {e e' e'' : Engine} (first : v.Same e e') (second : v.Same e' e'') :
    v.Same e e'' := Eq.trans first second

theorem Same.eq {e e' : Engine} (h : v.Same e e') : v.engine e = v.engine e' := h

/-- What can be read off the view is the same in engines that look alike. -/
theorem Same.reads {α : Type} {e e' : Engine} (h : v.Same e e') (read : Engine → α)
    (shown : ∀ e, read (v.engine e) = read e) : read e = read e' := by
  rw [← shown e, h.eq, shown e']

theorem Same.now {e e' : Engine} (h : v.Same e e') : e.now = e'.now :=
  h.reads (·.now) fun _ => rfl

theorem Same.config {e e' : Engine} (h : v.Same e e') : e.config = e'.config :=
  h.reads (·.config) fun _ => rfl

theorem Respects.same {f : Engine → Engine} (respects : v.Respects f) {e e' : Engine}
    (h : v.Same e e') : v.Same (f e) (f e') := by
  have left := respects e
  rw [h] at left
  exact left.symm.trans (respects e')

theorem Answers.same {α : Type} {f : Engine → Engine × α} (answers : v.Answers f) {e e' : Engine}
    (h : v.Same e e') : v.Same (f e).1 (f e').1 ∧ (f e).2 = (f e').2 := by
  obtain ⟨left, answer⟩ := answers e
  rw [h] at left answer
  exact ⟨left.symm.trans (answers e').1, answer.symm.trans (answers e').2⟩

theorem Answers.respects {α : Type} {f : Engine → Engine × α} (answers : v.Answers f) :
    v.Respects fun e => (f e).1 := fun e => (answers e).1

theorem Respects.comp {f g : Engine → Engine} (first : v.Respects f) (second : v.Respects g) :
    v.Respects fun e => g (f e) := fun e => second.same (first e)

/-! ## 1. What a view shows -/

section Shown

variable (v : View) (t : TaskRecord) (s : ResolvedSpec)

@[simp] theorem spec_work : (v.spec s).work = s.work := by rw [v.hooksOnly]
@[simp] theorem spec_schedule : (v.spec s).schedule = s.schedule := by rw [v.hooksOnly]
@[simp] theorem spec_name : (v.spec s).name = s.name := by rw [v.hooksOnly]
@[simp] theorem spec_maxConcurrent : (v.spec s).maxConcurrent = s.maxConcurrent := by
  rw [v.hooksOnly]
@[simp] theorem spec_overlap : (v.spec s).overlap = s.overlap := by rw [v.hooksOnly]

@[simp] theorem task_spec : (v.task t).spec = v.spec t.spec := rfl
@[simp] theorem task_running : (v.task t).running = t.running := rfl
@[simp] theorem task_loop : (v.task t).loop = t.loop := rfl
@[simp] theorem task_refusal? : (v.task t).refusal? = t.refusal? := rfl

@[simp] theorem task_name : (v.task t).name = t.name := v.spec_name t.spec

@[simp] theorem task_displayName : (v.task t).displayName = t.displayName := by
  rw [TaskRecord.displayName, task_name]
  rfl

@[simp] theorem task_isFull : (v.task t).isFull = t.isFull := by
  simp [TaskRecord.isFull]

@[simp] theorem task_task : v.task (v.task t) = v.task t := by
  simp [task, v.settled, List.filter_filter]

@[simp] theorem run_run (r : Run) : v.run (v.run r) = v.run r := by
  simp [run, List.filter_filter]

@[simp] theorem engine_engine (e : Engine) : v.engine (v.engine e) = v.engine e := by
  simp [engine, List.filter_filter, Function.comp_def]

theorem task_activate : (v.task t).activate = v.task t.activate := by
  have status : (v.task t).status = t.status := rfl
  unfold TaskRecord.activate
  rw [status]
  split <;> rfl

theorem task_markStopping : (v.task t).markStopping = v.task t.markStopping := by
  have status : (v.task t).status = t.status := rfl
  unfold TaskRecord.markStopping
  rw [status]
  split <;> rfl

theorem task_ensureLoop : (v.task t).ensureLoop = v.task t.ensureLoop := by
  unfold TaskRecord.ensureLoop
  rw [task_spec, spec_schedule, task_loop]
  split <;> rfl

theorem getElem?_tasks (e : Engine) (t : TaskId) :
    (v.engine e).tasks[t]? = (e.tasks[t]?).map v.task :=
  List.getElem?_map ..

theorem run?_engine (e : Engine) (id : RunId) : (v.engine e).run? id = (e.run? id).map v.run :=
  List.find?_map ..

@[simp] theorem engine_refusal? (e : Engine) : (v.engine e).refusal? = e.refusal? := rfl

@[simp] theorem engine_isOpen (e : Engine) : (v.engine e).isOpen = e.isOpen := rfl

end Shown

/-- Engines look alike if what a view changes looks alike and everything else is the same. -/
theorem same_of {e e' : Engine} (tasks : e.tasks.map v.task = e'.tasks.map v.task)
    (runs : e.runs.map v.run = e'.runs.map v.run)
    (mail : (e.mail.filter fun p => v.sees p.1) = e'.mail.filter fun p => v.sees p.1)
    (journal : (e.journal.filter fun entry => v.reads entry.note) =
      e'.journal.filter fun entry => v.reads entry.note)
    (rest : { e with tasks := [], runs := [], mail := [], journal := [] } =
      { e' with tasks := [], runs := [], mail := [], journal := [] }) : v.Same e e' := by
  obtain ⟨⟩ := e
  obtain ⟨⟩ := e'
  simp_all [Same, engine]

/-! ## 2. Small changes -/

theorem same_engine (v : View) (e : Engine) : v.Same (v.engine e) e := v.engine_engine e

/-- A change to nothing that a view changes. -/
theorem respects_frame {f : Engine → Engine} (commutes : ∀ e, f (v.engine e) = v.engine (f e)) :
    v.Respects f := by
  intro e
  rw [commutes]
  exact v.same_engine (f e)

theorem respects_note (v : View) (n : Note) : v.Respects (·.note n) := by
  intro e
  apply same_of
  · simp [Engine.note, engine, Function.comp_def]
  · simp [Engine.note, engine, Function.comp_def]
  · simp [Engine.note, engine, List.filter_filter]
  · simp [Engine.note, engine, List.filter_cons, List.filter_filter]
  · rfl

theorem respects_announce (v : View) (event : Event) (task : Option TaskId) :
    v.Respects (·.announce event task) :=
  (respects_frame (f := fun e => { e with bus := e.bus.push event }) fun _ => rfl).comp
    (v.respects_note _)

theorem respects_publish (v : View) (event : Event) : v.Respects (·.publish event) :=
  v.respects_announce event none

theorem respects_publishAbout (v : View) (t : TaskId) (event : Event) :
    v.Respects (·.publishAbout t event) :=
  v.respects_announce event (some t)

theorem respects_publishAll (v : View) (events : List Event) : v.Respects (·.publishAll events) := by
  induction events with
  | nil => exact v.same_engine
  | cons event events ih => exact (v.respects_publish event).comp ih

/-- What a view shows of the tasks after a change to one of them. -/
theorem map_task_modify (f shown : TaskRecord → TaskRecord)
    (alike : ∀ task, v.task (f task) = shown (v.task task)) (tasks : List TaskRecord) (t : TaskId) :
    (tasks.modify t f).map v.task = (tasks.map v.task).modify t shown := by
  apply List.ext_getElem?
  intro i
  simp only [List.getElem?_map, List.getElem?_modify]
  cases tasks[i]? with
  | none => rfl
  | some task =>
    by_cases here : t = i
    · simp [here, alike]
    · simp [here]

/-- A task is changed in a way that does not depend on what the view changes. -/
theorem respects_updateTask (t : TaskId) {f : TaskRecord → TaskRecord}
    (alike : ∀ task, v.task (f (v.task task)) = v.task (f task)) :
    v.Respects (·.updateTask t f) := by
  intro e
  apply same_of
  · show ((e.tasks.map v.task).modify t f).map v.task = (e.tasks.modify t f).map v.task
    have shown := map_task_modify f (fun task => v.task (f task)) fun task => (alike task).symm
    rw [shown, shown, List.map_map]
    simp only [Function.comp_def, task_task]
  · simp [Engine.updateTask, engine]
  · simp [Engine.updateTask, engine, List.filter_filter]
  · simp [Engine.updateTask, engine, List.filter_filter]
  · rfl

theorem respects_updateTasks {f : TaskRecord → TaskRecord}
    (alike : ∀ task, v.task (f (v.task task)) = v.task (f task)) :
    v.Respects (·.updateTasks f) := by
  intro e
  apply same_of
  · simp [Engine.updateTasks, engine, alike]
  · simp [Engine.updateTasks, engine]
  · simp [Engine.updateTasks, engine, List.filter_filter]
  · simp [Engine.updateTasks, engine, List.filter_filter]
  · rfl

/-- Of two groups of callers the same ones are seen. -/
theorem same_deliver {e e' : Engine} {waiters waiters' : List WaiterId} (h : v.Same e e')
    (seen : waiters.filter v.sees = waiters'.filter v.sees) (d : Delivery) :
    v.Same (e.deliver waiters d) (e'.deliver waiters' d) := by
  have shown (e : Engine) (waiters : List WaiterId) : v.engine (e.deliver waiters d) =
      (v.engine e).deliver (waiters.filter v.sees) d := by
    simp [engine, Engine.deliver, List.filter_map, Function.comp_def]
  rw [Same, shown, shown, seen, h]

theorem respects_cancel (v : View) (t : Token) : v.Respects (·.cancel t) :=
  respects_frame fun _ => rfl

theorem respects_setProgress (v : View) (id : RunId) (progress : Progress) :
    v.Respects (·.setProgress id progress) := by
  apply respects_frame
  intro e
  simp only [Engine.setProgress, engine, List.map_map, Function.comp_def]
  congr 1
  apply List.map_congr_left
  intro r _
  by_cases here : r.id = id <;> simp [run, here]

theorem respects_removeRun (v : View) (id : RunId) : v.Respects (·.removeRun id) := by
  apply respects_frame
  intro e
  simp [Engine.removeRun, engine, List.filter_map, Function.comp_def, run]

theorem respects_detach (v : View) (waiter : WaiterId) : v.Respects (·.detach waiter) := by
  apply respects_updateTask
  intro task
  have same : ((task.parked.filter v.sees).filter (· != waiter)).filter v.sees =
      (task.parked.filter (· != waiter)).filter v.sees := by
    simp only [List.filter_filter]
    apply List.filter_congr
    intro w _
    cases v.sees w <;> simp
  simp only [View.task, TaskRecord.detach, v.settled, same]

/-! ## 3. Requests and runs -/

theorem same_beginRun {e e' : Engine} {waiters waiters' : List WaiterId} (h : v.Same e e')
    (t : TaskId) (merged : Bool) (seen : waiters.filter v.sees = waiters'.filter v.sees) :
    v.Same (e.beginRun t merged waiters) (e'.beginRun t merged waiters') := by
  have shown (e : Engine) (waiters : List WaiterId) : v.Same (e.beginRun t merged waiters)
      ((v.engine e).beginRun t merged (waiters.filter v.sees)) := by
    have known := v.getElem?_tasks e t
    cases at_ : e.tasks[t]? with
    | none =>
      rw [at_] at known
      simp only [Engine.beginRun, at_, known, Option.map_none]
      exact (v.same_engine e).symm
    | some task =>
      rw [at_, Option.map_some] at known
      rw [Engine.beginRun_eq at_, Engine.beginRun_eq known]
      apply same_of
      · have began : v.task ((v.task task).begin e.now) = v.task (task.begin e.now) := by
          simp [View.task, TaskRecord.begin, v.settled, List.filter_filter]
        simp only [engine, List.map_set, List.map_map, Function.comp_def, task_task]
        exact congrArg _ began.symm
      · simp [engine, View.run, List.filter_filter]
        rfl
      · simp [engine, List.filter_filter]
      · simp [engine, List.filter_cons, List.filter_filter]
        rfl
      · rfl
  have left := shown e waiters
  rw [seen, h] at left
  exact left.trans (shown e' waiters').symm

/-- A task with room, or without: what a request comes to there. -/
theorem same_place (v : View) (e : Engine) (t : TaskId) (task : TaskRecord)
    (waiter : Option WaiterId) :
    v.Same ((v.engine e).place t (v.task task) waiter).1 (e.place t task waiter).1 ∧
      ((v.engine e).place t (v.task task) waiter).2 = (e.place t task waiter).2 := by
  have folds : v.Respects (·.updateTask t (·.fold waiter)) := by
    apply respects_updateTask
    intro task
    simp [View.task, TaskRecord.fold, v.settled, List.filter_filter]
  unfold Engine.place
  simp only [task_isFull, task_spec, spec_overlap, task_name]
  split
  · cases task.spec.overlap with
    | skip => exact ⟨v.respects_publishAbout t _ e, rfl⟩
    | merge => exact ⟨(folds.comp (v.respects_publishAbout t _)) e, rfl⟩
  · exact ⟨same_beginRun (v.same_engine e) t false rfl, rfl⟩

theorem answers_consider (v : View) (t : TaskId) (waiter : Option WaiterId) :
    v.Answers (·.consider t waiter) := by
  intro e
  have known := v.getElem?_tasks e t
  simp only [Engine.consider, engine_refusal?, known]
  cases e.refusal? with
  | some err => exact ⟨v.same_engine e, rfl⟩
  | none =>
    cases e.tasks[t]? with
    | none => exact ⟨v.same_engine e, rfl⟩
    | some task =>
      simp only [Option.map_some, task_refusal?]
      cases task.refusal? with
      | some err => exact ⟨v.same_engine e, rfl⟩
      | none => exact v.same_place e t task waiter

theorem answers_request (v : View) (t : TaskId) (waiter : Option WaiterId) :
    v.Answers (·.request t waiter) := by
  intro e
  obtain ⟨same, answer⟩ := v.answers_consider t waiter e
  simp only [Engine.request, answer]
  exact ⟨(v.respects_note _).same same, trivial⟩

theorem lookup?_engine (v : View) (e : Engine) (name : String) :
    (v.engine e).lookup? name = e.lookup? name := rfl

theorem answers_trigger (v : View) (name : String) : v.Answers (·.trigger name) := by
  intro e
  simp only [Engine.trigger, lookup?_engine]
  cases e.lookup? name with
  | none => exact ⟨v.same_engine e, rfl⟩
  | some t => exact v.answers_request t none e

theorem nextWaiter_engine (v : View) (e : Engine) (t : TaskId) :
    (v.engine e).nextWaiter t = e.nextWaiter t := by
  simp only [Engine.nextWaiter, getElem?_tasks, Option.map_map]
  rfl

theorem respects_drawSerial (v : View) (t : TaskId) : v.Respects (·.drawSerial t) := by
  apply respects_updateTask
  intro task
  simp [View.task, v.settled, List.filter_filter]

theorem answers_requestWaiting (v : View) (t : TaskId) : v.Answers (·.requestWaiting t) := by
  intro e
  have asked := (v.answers_request t (some (e.nextWaiter t))).same (v.respects_drawSerial t e)
  simp only [Engine.requestWaiting, nextWaiter_engine, asked.2]
  exact ⟨asked.1, trivial⟩

theorem same_setTask {e e' : Engine} (h : v.Same e e') (t : TaskId) {task task' : TaskRecord}
    (alike : v.task task = v.task task') :
    v.Same { e with tasks := e.tasks.set t task } { e' with tasks := e'.tasks.set t task' } := by
  have shown (e : Engine) (task : TaskRecord) : v.engine { e with tasks := e.tasks.set t task } =
      { v.engine e with tasks := (v.engine e).tasks.set t (v.task task) } := by
    simp [engine, List.map_set]
  rw [Same, shown, shown, alike, h]

theorem filter_sees_filter (v : View) (waiters : List WaiterId) :
    (waiters.filter v.sees).filter v.sees = waiters.filter v.sees := by
  simp [List.filter_filter]

theorem same_conclude (v : View) (e : Engine) (run : Run) (task : TaskRecord) (outcome : Outcome) :
    v.Same ((v.engine e).conclude (v.run run) (v.task task) outcome)
      (e.conclude run task outcome) := by
  have ended : v.task ((v.task task).conclude e.phase e.now outcome) =
      v.task (task.conclude e.phase e.now outcome) := by
    cases owed : task.pending <;> cases outcome <;>
      simp [View.task, TaskRecord.conclude, TaskRecord.count, owed, v.settled, List.filter_filter]
  have removed := same_setTask (v.respects_removeRun run.id e) run.id.task ended
  have noted := (v.respects_note (.finished run.id outcome)).same removed
  exact same_deliver noted (v.filter_sees_filter run.waiters) _

theorem same_settleOwed {e e' : Engine} {parked parked' : List WaiterId} (h : v.Same e e')
    (t : TaskId) (closing : Bool) (seen : parked.filter v.sees = parked'.filter v.sees) :
    v.Same (e.settleOwed t closing parked) (e'.settleOwed t closing parked') := by
  cases closing with
  | true => exact same_deliver h seen _
  | false => exact same_beginRun h t true seen

theorem respects_finish (v : View) (id : RunId) (outcome : Outcome) :
    v.Respects (·.finish id outcome) := by
  intro e
  have found := v.run?_engine e id
  have known := v.getElem?_tasks e id.task
  simp only [Engine.finish, found, known, engine_isOpen]
  cases e.run? id with
  | none => exact v.same_engine e
  | some run =>
    cases e.tasks[id.task]? with
    | none => exact v.same_engine e
    | some task =>
      have told := v.same_conclude e run task outcome
      have shown : (v.task task).pending = task.pending := rfl
      cases owed : task.pending with
      | true =>
        rw [owed] at shown
        simp only [Option.map_some, shown, owed, if_true]
        exact same_settleOwed told id.task _ (v.filter_sees_filter task.parked)
      | false =>
        rw [owed] at shown
        simp only [Option.map_some, shown, owed, Bool.false_eq_true, if_false]
        exact told

theorem respects_abandon (v : View) (id : RunId) : v.Respects (·.abandon id) := by
  intro e
  have found := v.run?_engine e id
  simp only [Engine.abandon, found]
  cases e.run? id with
  | none => exact v.same_engine e
  | some run => exact same_deliver (v.respects_removeRun id e) (v.filter_sees_filter run.waiters) _

/-! ## 4. Registration and schedules -/

theorem task_newRecord (v : View) (e : Engine) (spec : ResolvedSpec) (status : TaskStatus) :
    v.task ((v.engine e).newRecord (v.spec spec) status) = v.task (e.newRecord spec status) := by
  have fresh : ({ spec := v.spec spec, status } : TaskRecord) = v.task { spec, status } := rfl
  have phase : (v.engine e).phase = e.phase := rfl
  unfold Engine.newRecord
  rw [phase, fresh, task_ensureLoop]
  cases e.phase <;> exact v.task_task _

theorem same_register {e e' : Engine} {spec spec' : ResolvedSpec} (h : v.Same e e')
    (alike : v.spec spec = v.spec spec') (status : TaskStatus) :
    v.Same (e.register spec status) (e'.register spec' status) := by
  have shown (e : Engine) (spec : ResolvedSpec) :
      v.Same ((v.engine e).register (v.spec spec) status) (e.register spec status) := by
    have count : (v.engine e).tasks.length = e.tasks.length := List.length_map _
    unfold Engine.register
    rw [count, spec_name, spec_schedule]
    apply Respects.same (v.respects_publishAbout _ _)
    apply same_of
    · simp only [List.map_append, List.map_cons, List.map_nil, task_newRecord]
      simp [engine]
    · simp [engine]
    · simp [engine, List.filter_filter]
    · simp [engine, List.filter_filter]
    · rfl
  have left := shown e spec
  rw [alike, h] at left
  exact left.symm.trans (shown e' spec')

/-- Specs that look alike are registered alike. -/
theorem same_add {e e' : Engine} {spec spec' : Spec} (h : v.Same e e')
    (alike : (spec.resolve e.config).map v.spec = (spec'.resolve e.config).map v.spec) :
    v.Same (e.add spec).1 (e'.add spec').1 ∧ (e.add spec).2 = (e'.add spec').2 := by
  have status : e.initialStatus? = e'.initialStatus? := h.reads (·.initialStatus?) fun _ => rfl
  have found (name : String) : e.lookup? name = e'.lookup? name :=
    h.reads (·.lookup? name) fun e => v.lookup?_engine e name
  have count : e.tasks.length = e'.tasks.length :=
    h.reads (·.tasks.length) fun _ => List.length_map _
  unfold Engine.add
  rw [← h.config, status, count]
  cases first : spec.resolve e.config with
  | error err =>
    cases second : spec'.resolve e.config with
    | error err' =>
      rw [first, second] at alike
      obtain rfl : err = err' := Except.error.inj alike
      exact ⟨h, rfl⟩
    | ok resolved' =>
      rw [first, second] at alike
      cases alike
  | ok resolved =>
    cases second : spec'.resolve e.config with
    | error err' =>
      rw [first, second] at alike
      cases alike
    | ok resolved' =>
      rw [first, second] at alike
      have same : v.spec resolved = v.spec resolved' := Except.ok.inj alike
      have name : resolved.name = resolved'.name := by
        rw [← v.spec_name resolved, same, v.spec_name]
      simp only [name, found]
      cases e'.initialStatus? with
      | none => exact ⟨h, rfl⟩
      | some status =>
        dsimp only
        split
        · exact ⟨h, rfl⟩
        · exact ⟨same_register h same status, rfl⟩

theorem same_armLoop {e e' : Engine} (h : v.Same e e') (t : TaskId) (task : TaskRecord)
    (base : Instant) (due? : Option Instant) :
    v.Same (e.armLoop t (v.task task) base due?) (e'.armLoop t task base due?) := by
  have now : e.now = e'.now := h.now
  cases due? with
  | none =>
    apply Respects.same (respects_updateTask t _) h
    intro task
    simp [View.task, v.settled, List.filter_filter]
  | some due =>
    simp only [Engine.armLoop, now, task_name]
    apply Respects.same (v.respects_publishAbout t _)
    apply Respects.same (v.respects_note _)
    apply Respects.same (respects_updateTask t _) h
    intro task
    simp [View.task, v.settled, List.filter_filter]

/-- What a tick comes to after the answer to its request. -/
theorem same_tick (v : View) (t : TaskId) (task : TaskRecord) (every : Every) (base : Instant)
    (e : Engine) :
    v.Same ((v.engine e).tick t (v.task task) every base) (e.tick t task every base) := by
  have asked := (v.answers_request t none).same (v.respects_note (.ticked t) e)
  have now : (v.engine e).now = e.now := rfl
  unfold Engine.tick
  rw [now]
  cases every.tick with
  | fixedRate => exact same_armLoop asked.1 t task base _
  | fixedDelay =>
    dsimp only
    generalize ((v.engine e).note (.ticked t)).request t none = left at asked ⊢
    generalize (e.note (.ticked t)).request t none = right at asked ⊢
    obtain ⟨e', answer'⟩ := left
    obtain ⟨e'', answer⟩ := right
    obtain ⟨same, answers⟩ := asked
    obtain rfl : answer' = answer := answers
    have listens : v.Same
        (e'.updateTask t fun t => { t with loop := .listening base task.completions })
        (e''.updateTask t fun t => { t with loop := .listening base task.completions }) := by
      apply Respects.same (respects_updateTask t _) same
      intro task
      simp [View.task, v.settled, List.filter_filter]
    cases answer' with
    | ok admission => exact listens
    | error err =>
      cases err with
      | skipped => exact listens
      | _ =>
        have now' : e'.now = e''.now := same.now
        simp only [now']
        exact same_armLoop same t task base _

theorem respects_endLoop (v : View) (t : TaskId) : v.Respects (·.endLoop t) := by
  apply respects_updateTask
  intro task
  have quiet : ({ v.task task with nextRun := none, loop := .ended } : TaskRecord) =
      v.task { task with nextRun := none, loop := .ended } := rfl
  rw [quiet, task_markStopping, task_task]

theorem respects_passTick (v : View) (t : TaskId) (every : Every) :
    v.Respects (·.passTick t every) := by
  intro e
  have known := v.getElem?_tasks e t
  have cancelled : (v.engine e).isCancelled (v.engine e).runToken = e.isCancelled e.runToken := rfl
  have now : (v.engine e).now = e.now := rfl
  simp only [Engine.passTick, known, cancelled, now]
  cases e.tasks[t]? with
  | none => exact v.same_engine e
  | some task =>
    simp only [Option.map_some, task_loop]
    cases task.loop with
    | sleeping base due =>
      dsimp only
      split
      · exact v.respects_endLoop t e
      · split
        · exact v.same_tick t task every base e
        · exact v.same_engine e
    | absent => exact v.same_engine e
    | fresh => exact v.same_engine e
    | listening base seen => exact v.same_engine e
    | ended => exact v.same_engine e

theorem respects_turnLoop (v : View) (t : TaskId) : v.Respects (·.turnLoop t) := by
  intro e
  have known := v.getElem?_tasks e t
  have cancelled : (v.engine e).isCancelled (v.engine e).runToken = e.isCancelled e.runToken := rfl
  have now : (v.engine e).now = e.now := rfl
  have armed (task : TaskRecord) (every : Every) (base : Instant) (due? : Option Instant) :
      v.Same (((v.engine e).armLoop t (v.task task) base due?).passTick t every)
        ((e.armLoop t task base due?).passTick t every) :=
    (v.respects_passTick t every).same (same_armLoop (v.same_engine e) t task base due?)
  simp only [Engine.turnLoop, known, cancelled, now]
  cases e.tasks[t]? with
  | none => exact v.same_engine e
  | some task =>
    simp only [Option.map_some, task_loop, task_spec, spec_schedule]
    cases task.spec.schedule with
    | onDemand => exact v.same_engine e
    | every every =>
      cases task.loop with
      | absent => exact v.same_engine e
      | fresh => exact armed task every e.now _
      | sleeping base due => exact v.respects_passTick t every e
      | listening base seen =>
        have counted : (v.task task).completions = task.completions := rfl
        have ended : (v.task task).completedAt = task.completedAt := rfl
        simp only [counted, ended]
        split
        · exact v.respects_endLoop t e
        · split
          · exact v.same_engine e
          · exact armed task every base _
      | ended => exact v.same_engine e

/-! ## 5. Feeding the lanes -/

theorem respects_emit (v : View) (event : Event) : v.Respects (·.emit event) := by
  intro e
  have noted := (v.respects_note (.forwarded event)).same
    ((respects_frame (f := fun e => { e with lanes := (emitTo e.lanes event).1 })
      fun _ => rfl) e : v.Same _ _)
  exact (v.respects_publishAll _).same noted

theorem respects_workLane (v : View) (i : Nat) : v.Respects (·.workLane i) := by
  intro e
  have worked : v.Same { v.engine e with lanes := (TaskEngine.workLane e.now e.lanes i).1 }
      { e with lanes := (TaskEngine.workLane e.now e.lanes i).1 } :=
    (respects_frame (f := fun e => { e with lanes := (TaskEngine.workLane e.now e.lanes i).1 })
      fun _ => rfl) e
  exact (v.respects_publishAll _).same worked

theorem respects_passOn (v : View) (event : Event) (cursor : Nat) :
    v.Respects fun e => { e with cursor }.emit event :=
  (respects_frame (f := fun e => { e with cursor }) fun _ => rfl).comp (v.respects_emit event)

theorem answers_forward (v : View) (untilEnd : Bool) (fuel : Nat) :
    v.Answers (·.forward untilEnd fuel) := by
  induction fuel with
  | zero => exact fun e => ⟨v.same_engine e, rfl⟩
  | succ fuel ih =>
    intro e
    have bus : (v.engine e).bus.next? (v.engine e).cursor = e.bus.next? e.cursor := rfl
    simp only [Engine.forward, bus]
    cases e.bus.next? e.cursor with
    | none => exact ⟨v.same_engine e, rfl⟩
    | some found =>
      obtain ⟨event, cursor⟩ := found
      have passed := v.respects_passOn event cursor e
      dsimp only
      split
      · exact ⟨passed, rfl⟩
      · exact ih.same passed

theorem respects_closeLanes (v : View) : v.Respects (·.closeLanes) := respects_frame fun _ => rfl

theorem respects_awaitWorkers (v : View) : v.Respects (·.awaitWorkers) := by
  apply respects_frame
  intro e
  have lanes : (v.engine e).lanes = e.lanes := rfl
  unfold Engine.awaitWorkers
  rw [lanes]
  split <;> rfl

theorem respects_turnPump (v : View) : v.Respects (·.turnPump) := by
  intro e
  have pump : (v.engine e).pump = e.pump := rfl
  have bound : (v.engine e).forwardBound = e.forwardBound := rfl
  unfold Engine.turnPump
  simp only [pump, bound]
  cases e.pump with
  | absent => exact v.same_engine e
  | ended => exact v.same_engine e
  | closing => exact v.respects_awaitWorkers e
  | receiving =>
    obtain ⟨passed, ended⟩ := v.answers_forward true e.forwardBound e
    simp only [ended]
    split
    · exact (v.respects_closeLanes.comp v.respects_awaitWorkers).same passed
    · exact passed

theorem respects_receive (v : View) : v.Respects (·.receive) := by
  intro e
  have pump : (v.engine e).pump = e.pump := rfl
  have bus : (v.engine e).bus.next? (v.engine e).cursor = e.bus.next? e.cursor := rfl
  unfold Engine.receive
  simp only [pump, bus]
  cases receiving : e.pump with
  | absent => exact v.same_engine e
  | ended => exact v.same_engine e
  | closing => exact v.respects_awaitWorkers e
  | receiving =>
    dsimp only
    cases e.bus.next? e.cursor with
    | none => exact v.same_engine e
    | some found =>
      obtain ⟨event, cursor⟩ := found
      have passed := v.respects_passOn event cursor e
      simp only [pump, receiving] at passed
      dsimp only
      split
      · exact (v.respects_closeLanes.comp v.respects_awaitWorkers).same passed
      · exact passed

/-! ## 6. Starting and stopping -/

theorem respects_start (v : View) (token : Token) : v.Respects fun e => (e.start token).1 := by
  intro e
  have phase : (v.engine e).phase = e.phase := rfl
  have pumped : v.Respects (·.startPump) := by
    apply respects_frame
    intro e
    have dispatch : (v.engine e).dispatch = e.dispatch := rfl
    unfold Engine.startPump
    rw [dispatch]
    split <;> rfl
  have activated : v.Respects (·.updateTasks fun t => t.activate.ensureLoop) := by
    apply respects_updateTasks
    intro task
    rw [task_activate, task_ensureLoop, task_task]
  have running : v.Respects fun e => { e with
      phase := .running
      runToken := (e.cancellation.child token).1
      cancellation := (e.cancellation.child token).2
      watching := true } := respects_frame fun _ => rfl
  unfold Engine.start
  simp only [phase]
  cases e.phase with
  | running => exact v.same_engine e
  | stopping => exact v.same_engine e
  | stopped => exact v.same_engine e
  | notStarted => exact ((running.comp pumped).comp (activated.comp (v.respects_publish _))) e

theorem respects_markStopping (v : View) : v.Respects (·.updateTasks (·.markStopping)) := by
  apply respects_updateTasks
  intro task
  rw [task_markStopping, task_task]

theorem respects_beginStopping (v : View) : v.Respects (·.beginStopping) := by
  have closing : v.Respects fun e => { e with phase := .stopping }.cancel e.runToken :=
    respects_frame fun _ => rfl
  exact closing.comp v.respects_markStopping

theorem turnWatcher_of_running {e : Engine} (running : e.phase = .running) :
    e.turnWatcher = { e with watching := false }.beginStopping.publish
      { kind := .shutdownRequested, reason := some "run token cancelled" } := by
  simp only [Engine.turnWatcher, running]

theorem turnWatcher_of_not_running {e : Engine} (other : e.phase ≠ .running) :
    e.turnWatcher = { e with watching := false } := by
  unfold Engine.turnWatcher
  cases phase : e.phase with
  | running => exact absurd phase other
  | _ => rfl

theorem respects_turnWatcher (v : View) : v.Respects (·.turnWatcher) := by
  intro e
  have seen : v.Respects fun e => { e with watching := false } := respects_frame fun _ => rfl
  dsimp only
  by_cases running : e.phase = .running
  · have running' : (v.engine e).phase = .running := running
    rw [turnWatcher_of_running running, turnWatcher_of_running running']
    exact (seen.comp (v.respects_beginStopping.comp (v.respects_publish _))) e
  · have other : (v.engine e).phase ≠ .running := running
    rw [turnWatcher_of_not_running running, turnWatcher_of_not_running other]
    exact seen e

theorem respects_drainPending (v : View) : v.Respects (·.drainPending) := by
  intro e
  have forgets : v.Respects (·.updateTasks (·.forget)) := by
    apply respects_updateTasks
    intro task
    simp [View.task, TaskRecord.forget, v.settled]
  have parked : ((v.engine e).tasks.flatMap (·.parked)).filter v.sees =
      (e.tasks.flatMap (·.parked)).filter v.sees := by
    simp only [engine, List.flatMap_map, List.filter_flatMap]
    simp [View.task, List.filter_filter]
  exact forgets.same (same_deliver (v.same_engine e) parked _)

theorem respects_finalize (v : View) : v.Respects (·.finalize) := by
  have finals : v.Respects (·.updateTasks (·.finalize)) := by
    apply respects_updateTasks
    intro task
    simp [View.task, TaskRecord.finalize, TaskRecord.forget, v.settled]
  exact v.respects_drainPending.comp finals

theorem Same.turnFlush {e e' : Engine} (h : v.Same e e') (s : Engine.Shutdown) :
    e.turnFlush s = e'.turnFlush s :=
  h.reads (·.turnFlush s) fun _ => rfl

theorem answers_beginFlush (v : View) (s : Engine.Shutdown) : v.Answers (·.beginFlush s) := by
  intro e
  have taken : v.Respects fun e => { e with dispatch := .idle } := respects_frame fun _ => rfl
  have dispatch : (v.engine e).dispatch = e.dispatch := rfl
  simp only [Engine.beginFlush, dispatch]
  cases e.dispatch with
  | idle => exact ⟨v.same_engine e, rfl⟩
  | pumping => exact ⟨taken e, rfl⟩
  | buffered =>
    have bound : ({ v.engine e with dispatch := .idle } : Engine).forwardBound =
        { e with dispatch := .idle }.forwardBound := rfl
    have passed := ((v.answers_forward false { e with dispatch := .idle }.forwardBound).same
      (taken e)).1
    have closed := v.respects_closeLanes.same passed
    simp only [Engine.forwardAll, bound]
    exact ⟨closed, closed.turnFlush _⟩

theorem answers_complete (v : View) (s : Engine.Shutdown) : v.Answers (·.complete s) := by
  intro e
  have stopped : v.Respects fun e => { e with phase := .stopped } := respects_frame fun _ => rfl
  have finished := (stopped.comp v.respects_finalize).comp
    (v.respects_publish { kind := .allStoppedWithin })
  exact (v.answers_beginFlush s).same (finished e)

theorem stuck_engine (v : View) (e : Engine) : (v.engine e).stuck = e.stuck := by
  simp [Engine.stuck, engine, List.filter_map, Function.comp_def]
  rfl

theorem answers_expire (v : View) (s : Engine.Shutdown) : v.Answers (·.expire s) := by
  intro e
  simp only [Engine.expire, stuck_engine]
  exact ⟨(v.respects_publish _).same (v.respects_drainPending e), trivial⟩

theorem isIdle_engine (v : View) (e : Engine) : (v.engine e).isIdle = e.isIdle := by
  simp [Engine.isIdle, engine, Function.comp_def]

theorem answers_turnShutdown (v : View) (s : Engine.Shutdown) : v.Answers (·.turnShutdown s) := by
  intro e
  have reached : (v.engine e).boundReached s.bound = e.boundReached s.bound := by
    cases s.bound <;> rfl
  simp only [Engine.turnShutdown, isIdle_engine, reached]
  cases s.stage with
  | draining =>
    dsimp only
    split
    · exact v.answers_complete s e
    · split
      · exact v.answers_expire s e
      · exact ⟨v.same_engine e, rfl⟩
  | awaitingPump => exact ⟨v.same_engine e, rfl⟩
  | awaitingWorkers => exact ⟨v.same_engine e, rfl⟩

theorem answers_shutdown (v : View) (bound : Engine.Bound) (grace : Duration) :
    v.Answers (·.shutdown bound grace) := by
  intro e
  have phase : (v.engine e).phase = e.phase := rfl
  have stopped : v.Respects fun e => { e with phase := .stopped } := respects_frame fun _ => rfl
  unfold Engine.shutdown
  simp only [phase]
  cases e.phase with
  | stopped => exact ⟨v.same_engine e, rfl⟩
  | notStarted => exact (v.answers_beginFlush _).same ((stopped.comp v.respects_finalize) e)
  | running =>
    have asked := v.respects_beginStopping.comp (v.respects_publish { kind := .shutdownRequested })
    exact (v.answers_turnShutdown _).same (asked e)
  | stopping => exact v.answers_turnShutdown _ e

/-! ## 7. All moves -/

theorem allows_engine (v : View) (e : Engine) (m : Engine.Move) :
    (v.engine e).allows m = e.allows m := by
  cases m with
  | announce id event =>
    simp [Engine.allows, run?_engine]
  | abandon id =>
    simp only [Engine.allows, getElem?_tasks, Option.any_map, task_spec, spec_work]
  | _ => rfl

theorem Same.allows {e e' : Engine} (h : v.Same e e') (m : Engine.Move) :
    e.allows m = e'.allows m :=
  h.reads (·.allows m) fun e => v.allows_engine e m

theorem respects_perform (v : View) (m : Engine.Move) : v.Respects (·.perform m) := by
  cases m with
  | clock now => exact respects_frame (f := fun e => { e with now }) fun _ => rfl
  | add spec => exact fun e => (same_add (v.same_engine e) rfl).1
  | start token => exact v.respects_start token
  | cancel token => exact v.respects_cancel token
  | request t => exact (v.answers_request t none).respects
  | requestWaiting t => exact (v.answers_requestWaiting t).respects
  | detach waiter => exact v.respects_detach waiter
  | announce id event => exact v.respects_publishAbout id.task event
  | progress id progress => exact v.respects_setProgress id progress
  | finish id outcome => exact v.respects_finish id outcome
  | abandon id => exact v.respects_abandon id
  | schedule t => exact v.respects_turnLoop t
  | watch => exact v.respects_turnWatcher
  | shutdown bound grace => exact (v.answers_shutdown bound grace).respects
  | awaitShutdown s => exact (v.answers_turnShutdown s).respects
  | receive => exact v.respects_receive
  | work i => exact v.respects_workLane i
  | remark note => exact v.respects_note note

/-- **Engines that look alike look alike after the same move.** -/
theorem Same.perform {e e' : Engine} (h : v.Same e e') (m : Engine.Move) :
    v.Same (e.perform m) (e'.perform m) :=
  (v.respects_perform m).same h

end View

end TaskEngine
