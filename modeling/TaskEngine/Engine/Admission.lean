/-
  TaskEngine/Engine/Admission.lean
  ================================
  **Requests for runs.**

  A request is turned away while the engine or the task is closed to it; otherwise it starts a run
  if there is room, and at capacity the overlap policy of the task decides.  A caller that waits
  gets a serial number first; if it leaves, that changes nothing but the list of parked callers.
-/
import TaskEngine.Engine.State

namespace TaskEngine

namespace Engine

/-- Starts a run of task `t` for the callers `waiters`; its token hangs on the run token. -/
def beginRun (e : Engine) (t : TaskId) (merged : Bool) (waiters : List WaiterId) : Engine :=
  match e.tasks[t]? with
  | none => e
  | some task =>
      let run : Run :=
        { id := ⟨t, task.runCount + 1⟩, merged, waiters,
          token := (e.cancellation.child e.runToken).1 }
      { e with
        cancellation := (e.cancellation.child e.runToken).2
        tasks := e.tasks.set t (task.begin e.now)
        runs := e.runs ++ [run] }.note (.began run.id merged)

theorem beginRun_eq {e : Engine} {t : TaskId} {task : TaskRecord} (known : e.tasks[t]? = some task)
    (merged : Bool) (waiters : List WaiterId) :
    e.beginRun t merged waiters = { e with
      cancellation := (e.cancellation.child e.runToken).2
      tasks := e.tasks.set t (task.begin e.now)
      runs := e.runs ++
        [{ id := ⟨t, task.runCount + 1⟩, merged, waiters, token := (e.cancellation.child e.runToken).1 }]
      journal := ⟨e.now, .began ⟨t, task.runCount + 1⟩ merged⟩ :: e.journal } := by
  simp only [beginRun, known, note]

/-- Decides on a request that finds room, or not, in an open task. -/
def place (e : Engine) (t : TaskId) (task : TaskRecord) (waiter : Option WaiterId) :
    Engine × AdmissionResult :=
  if task.isFull then
    match task.spec.overlap with
    | .skip =>
        (e.publishAbout t { kind := .runSkipped, task := some task.name }, .error .skipped)
    | .merge =>
        ((e.updateTask t (·.fold waiter)).publishAbout t
          { kind := .runMerged, task := some task.name }, .ok .merged)
  else (e.beginRun t false waiter.toList, .ok .started)

def consider (e : Engine) (t : TaskId) (waiter : Option WaiterId) : Engine × AdmissionResult :=
  match e.refusal?, e.tasks[t]? with
  | some refusal, _ => (e, .error refusal)
  | none, none => (e, .error .closed)
  | none, some task =>
      match task.refusal? with
      | some refusal => (e, .error refusal)
      | none => e.place t task waiter

def request (e : Engine) (t : TaskId) (waiter : Option WaiterId) : Engine × AdmissionResult :=
  let (e, result) := e.consider t waiter
  (e.note (.requested t waiter result), result)

/-- What a request comes to: it is refused, it is turned away at capacity, it is folded into the
owed run of a full task, or it starts a run of a task with room. -/
inductive RequestStep (e : Engine) (t : TaskId) (waiter : Option WaiterId) :
    Engine × AdmissionResult → Prop where
  | refused (err : RequestError) :
      RequestStep e t waiter (e.note (.requested t waiter (.error err)), .error err)
  | skipped (task : TaskRecord) (known : e.tasks[t]? = some task) (full : task.isFull = true) :
      RequestStep e t waiter
        ((e.publishAbout t { kind := .runSkipped, task := some task.name }).note
          (.requested t waiter (.error .skipped)), .error .skipped)
  | merged (task : TaskRecord) (known : e.tasks[t]? = some task) (admits : e.refusal? = none)
      (willing : task.refusal? = none) (full : task.isFull = true)
      (overlap : task.spec.overlap = .merge) :
      RequestStep e t waiter
        (((e.updateTask t (·.fold waiter)).publishAbout t
          { kind := .runMerged, task := some task.name }).note (.requested t waiter (.ok .merged)),
          .ok .merged)
  | started (task : TaskRecord) (known : e.tasks[t]? = some task) (admits : e.refusal? = none)
      (willing : task.refusal? = none) (room : task.isFull = false) :
      RequestStep e t waiter
        ((e.beginRun t false waiter.toList).note (.requested t waiter (.ok .started)), .ok .started)

theorem request_step (e : Engine) (t : TaskId) (waiter : Option WaiterId) :
    RequestStep e t waiter (e.request t waiter) := by
  unfold request consider
  cases admits : e.refusal? with
  | some err => exact .refused err
  | none =>
      cases known : e.tasks[t]? with
      | none => exact .refused .closed
      | some task =>
          cases willing : task.refusal? with
          | some err =>
              simp only [willing]
              exact .refused err
          | none =>
              simp only [willing, place]
              by_cases full : task.isFull = true
              · rw [if_pos full]
                cases overlap : task.spec.overlap with
                | skip => exact .skipped task known full
                | merge => exact .merged task known admits willing full overlap
              · rw [if_neg full]
                exact .started task known admits willing (Bool.eq_false_iff.mpr full)

def trigger (e : Engine) (name : String) : Engine × AdmissionResult :=
  match e.lookup? name with
  | none => (e, .error (.notFound name))
  | some t => e.request t none

/-- The next caller that waits for a run of task `t`. -/
def nextWaiter (e : Engine) (t : TaskId) : WaiterId := ⟨t, ((e.tasks[t]?).map (·.nextSerial)).getD 0⟩

def drawSerial (e : Engine) (t : TaskId) : Engine :=
  e.updateTask t fun task => { task with nextSerial := task.nextSerial + 1 }

/-- A request by a caller that waits for the run.  It is known by its serial number afterwards. -/
def requestWaiting (e : Engine) (t : TaskId) : Engine × WaiterId × AdmissionResult :=
  let (after, result) := (e.drawSerial t).request t (some (e.nextWaiter t))
  (after, e.nextWaiter t, result)

theorem requestWaiting_fst (e : Engine) (t : TaskId) :
    (e.requestWaiting t).1 = ((e.drawSerial t).request t (some (e.nextWaiter t))).1 := rfl

def detach (e : Engine) (waiter : WaiterId) : Engine :=
  e.updateTask waiter.task (·.detach waiter)

end Engine

end TaskEngine
