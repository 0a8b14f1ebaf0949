/-
  TaskEngine/Engine/Registry.lean
  ===============================
  **Registration of tasks.**

  A task is accepted if its spec resolves, the engine is not closing and no other task has its
  name.  A periodic task that is accepted by a running engine gets its schedule at once.  A
  registration that is refused changes nothing.
-/
import TaskEngine.Engine.State

namespace TaskEngine

namespace Engine

/-- The status of a task registered now, unless the engine accepts none. -/
def initialStatus? (e : Engine) : Option TaskStatus :=
  match e.phase with
  | .notStarted => some .notStarted
  | .running => if e.isOpen then some .idle else none
  | .stopping | .stopped => none

/-- The record of a task registered now; a running engine sets its schedule up at once. -/
def newRecord (e : Engine) (spec : ResolvedSpec) (status : TaskStatus) : TaskRecord :=
  match e.phase with
  | .running => TaskRecord.ensureLoop { spec, status }
  | .notStarted | .stopping | .stopped => { spec, status }

def register (e : Engine) (spec : ResolvedSpec) (status : TaskStatus) : Engine :=
  { e with
    tasks := e.tasks ++ [e.newRecord spec status]
    index := if spec.name = "" then e.index
      else e.index ++ [(spec.name, e.tasks.length)] }.publishAbout e.tasks.length
        { kind := .taskAdded, task := some spec.name, reason := some spec.schedule.label }

/-- Registers a task; it is known by its position afterwards. -/
def add (e : Engine) (spec : Spec) : Engine × Except RegistrationError TaskId :=
  match spec.resolve e.config with
  | .error err => (e, .error err)
  | .ok resolved =>
      match e.initialStatus? with
      | none => (e, .error .closed)
      | some status =>
          if (e.lookup? resolved.name).isSome then (e, .error (.duplicateName resolved.name))
          else (e.register resolved status, .ok e.tasks.length)

end Engine

end TaskEngine
