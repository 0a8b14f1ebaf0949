/-
  TaskEngine/Engine/Completion.lean
  =================================
  **The end of a run.**

  When a run ends, its task is brought up to date, the callers that waited for it are told, and an
  owed run begins at once for all callers that were folded into it, unless the engine is closing:
  then those callers are told that it is closed.
-/
import TaskEngine.Engine.Admission

namespace TaskEngine

namespace Engine

def removeRun (e : Engine) (id : RunId) : Engine :=
  { e with runs := e.runs.filter (·.id != id) }

/-- What follows the end of a run for the callers that were folded into the owed one. -/
def settleOwed (e : Engine) (t : TaskId) (closing : Bool) (parked : List WaiterId) : Engine :=
  if closing then e.deliver parked (.answered (.error .closed)) else e.beginRun t true parked

/-- A run in flight leaves its place, and the callers that waited for it are told how it ended. -/
def conclude (e : Engine) (run : Run) (task : TaskRecord) (outcome : Outcome) : Engine :=
  ({ e.removeRun run.id with
    tasks := e.tasks.set run.id.task (task.conclude e.phase e.now outcome) }.note
      (.finished run.id outcome)).deliver run.waiters (.answered (outcome.waitResult !e.isOpen))

def finish (e : Engine) (id : RunId) (outcome : Outcome) : Engine :=
  match e.run? id, e.tasks[id.task]? with
  | some run, some task =>
      let told := e.conclude run task outcome
      if task.pending then told.settleOwed id.task (!e.isOpen) task.parked else told
  | _, _ => e

theorem mem_of_run? {e : Engine} {id : RunId} {run : Run} (found : e.run? id = some run) :
    run ∈ e.runs ∧ run.id = id :=
  ⟨List.mem_of_find?_eq_some found, by simpa using List.find?_some found⟩

theorem known_conclude {e : Engine} {run : Run} {task : TaskRecord}
    (known : e.tasks[run.id.task]? = some task) (outcome : Outcome) :
    (e.conclude run task outcome).tasks[run.id.task]? =
      some (task.conclude e.phase e.now outcome) := by
  have inside : run.id.task < e.tasks.length := (List.getElem?_eq_some_iff.mp known).1
  exact List.getElem?_set_self inside

/-- What the end of a run comes to: there is no such run, nothing is owed, the callers folded into
the owed run are told that the engine is closed, or the owed run begins. -/
inductive FinishStep (e : Engine) (id : RunId) (outcome : Outcome) : Engine → Prop where
  | unknown : FinishStep e id outcome e
  | last (run : Run) (task : TaskRecord) (found : e.run? id = some run)
      (known : e.tasks[run.id.task]? = some task) (settled : task.pending = false) :
      FinishStep e id outcome (e.conclude run task outcome)
  | closed (run : Run) (task : TaskRecord) (found : e.run? id = some run)
      (known : e.tasks[run.id.task]? = some task) (owed : task.pending = true)
      (closing : e.isOpen = false) :
      FinishStep e id outcome
        ((e.conclude run task outcome).deliver task.parked (.answered (.error .closed)))
  | again (run : Run) (task : TaskRecord) (found : e.run? id = some run)
      (known : e.tasks[run.id.task]? = some task) (owed : task.pending = true)
      (admits : e.isOpen = true) :
      FinishStep e id outcome ((e.conclude run task outcome).beginRun run.id.task true task.parked)

theorem finish_step (e : Engine) (id : RunId) (outcome : Outcome) :
    FinishStep e id outcome (e.finish id outcome) := by
  unfold finish
  cases found : e.run? id with
  | none => exact .unknown
  | some run =>
      obtain rfl : run.id = id := (mem_of_run? found).2
      cases known : e.tasks[run.id.task]? with
      | none => exact .unknown
      | some task =>
          dsimp only
          cases owed : task.pending with
          | false => exact .last run task found known owed
          | true =>
              cases admits : e.isOpen with
              | false => exact .closed run task found known owed admits
              | true => exact .again run task found known owed admits

/-- A run in flight is gone without having ended: its place is never given back, and the callers
that waited for it are left without an answer. -/
def abandon (e : Engine) (id : RunId) : Engine :=
  match e.run? id with
  | some run => (e.removeRun id).deliver run.waiters .dropped
  | none => e

def terminalEvent (task : String) (number : Nat) (outcome : Outcome) (elapsed : Duration) : Event :=
  let base : Event := match outcome with
    | .succeeded => { kind := .runSucceeded }
    | .failed e => { kind := .runFailed, reason := some e.message }
    | .panicked info => { kind := .runPanicked, reason := some info }
    | .canceled _ => { kind := .runCanceled }
  ((base.withTask task).withRun number).withElapsed elapsed

end Engine

end TaskEngine
