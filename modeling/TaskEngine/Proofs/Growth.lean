/-
  TaskEngine/Proofs/Growth.lean
  =============================
  **Tasks stay, and numbers only grow.**

  A task is never removed and never changes its spec, and the numbers that it gives out to runs and
  to waiting callers are not given out again.
-/
import TaskEngine.Proofs.Changes

namespace TaskEngine

/-- The spec of the task is the same, and the numbers of runs and callers that were given out stay
given out. -/
structure TaskRecord.Later (old new : TaskRecord) : Prop where
  spec : new.spec = old.spec
  runCount : old.runCount ≤ new.runCount
  nextSerial : old.nextSerial ≤ new.nextSerial

theorem TaskRecord.Later.refl (t : TaskRecord) : t.Later t := ⟨rfl, Nat.le_refl _, Nat.le_refl _⟩

theorem TaskRecord.Later.trans {a b c : TaskRecord} (first : a.Later b) (second : b.Later c) :
    a.Later c :=
  ⟨second.spec.trans first.spec, Nat.le_trans first.runCount second.runCount,
    Nat.le_trans first.nextSerial second.nextSerial⟩

namespace Engine

variable {e e' : Engine}

def Grows (e e' : Engine) : Prop :=
  ∀ (t : TaskId) (old : TaskRecord), e.tasks[t]? = some old →
    ∃ new, e'.tasks[t]? = some new ∧ old.Later new

theorem grows_of_eq (tasks : e'.tasks = e.tasks) : Grows e e' :=
  fun _ old found => ⟨old, tasks ▸ found, .refl old⟩

theorem Grows.trans {e'' : Engine} (first : Grows e e') (second : Grows e' e'') : Grows e e'' := by
  intro t old found
  obtain ⟨mid, found, later⟩ := first t old found
  obtain ⟨new, found, later'⟩ := second t mid found
  exact ⟨new, found, later.trans later'⟩

theorem grows_of_forall₂ {R : TaskRecord → TaskRecord → Prop}
    (tasks : List.Forall₂ R e.tasks e'.tasks)
    (keeps : ∀ old new, R old new → old.Later new) : Grows e e' := by
  intro t old found
  obtain ⟨new, found', related⟩ := forall₂_getElem? tasks.flip found
  exact ⟨new, found', keeps old new related⟩

theorem grows_of_set {t : TaskId} {task : TaskRecord} (known : e.tasks[t]? = some task)
    (new : TaskRecord) (tasks : e'.tasks = e.tasks.set t new) (later : task.Later new) :
    Grows e e' := by
  intro s old found
  by_cases same : s = t
  · subst same
    obtain rfl : task = old := Option.some.inj (known.symm.trans found)
    have inside : s < e.tasks.length := (List.getElem?_eq_some_iff.mp known).1
    exact ⟨new, by rw [tasks, List.getElem?_set_self inside], later⟩
  · exact ⟨old, by rw [tasks, List.getElem?_set_ne (Ne.symm same), found], .refl old⟩

theorem Alike.grows (h : Alike e e') : Grows e e' :=
  grows_of_forall₂ h.tasks fun _ _ alike =>
    ⟨alike.spec, alike.runCount ▸ Nat.le_refl _, alike.serial⟩

theorem grows_beginRun {t : TaskId} {task : TaskRecord} (known : e.tasks[t]? = some task)
    (merged : Bool) (waiters : List WaiterId) : Grows e (e.beginRun t merged waiters) :=
  grows_of_set known (task.begin e.now) (by rw [beginRun_eq known])
    ⟨rfl, Nat.le_succ _, Nat.le_refl _⟩

theorem grows_conclude {run : Run} {task : TaskRecord} (known : e.tasks[run.id.task]? = some task)
    (outcome : Outcome) : Grows e (e.conclude run task outcome) :=
  grows_of_set known (task.conclude e.phase e.now outcome) rfl
    ⟨TaskRecord.conclude_spec .., Nat.le_of_eq (TaskRecord.conclude_runCount ..).symm,
      Nat.le_of_eq (TaskRecord.conclude_nextSerial ..).symm⟩

theorem grows_fold {t : TaskId} {task : TaskRecord} (known : e.tasks[t]? = some task)
    (waiter : Option WaiterId) : Grows e (e.updateTask t (·.fold waiter)) :=
  grows_of_set known (task.fold waiter) (modify_eq_set_of_getElem? known _)
    ⟨rfl, Nat.le_refl _, Nat.le_refl _⟩

theorem grows_drainPending (e : Engine) : Grows e e.drainPending :=
  grows_of_forall₂ e.forall₂_drainPending
    fun _ _ forgotten => forgotten ▸ ⟨rfl, Nat.le_refl _, Nat.le_refl _⟩

theorem grows_stop (e : Engine) : Grows e { e with phase := .stopped }.finalize :=
  grows_of_forall₂ e.forall₂_stop fun _ _ final => final ▸ ⟨rfl, Nat.le_refl _, Nat.le_refl _⟩

theorem grows_detach (e : Engine) (leaver : WaiterId) : Grows e (e.detach leaver) :=
  grows_of_forall₂ (e.forall₂_detach leaver)
    fun _ _ which => by rcases which with rfl | rfl <;> exact ⟨rfl, Nat.le_refl _, Nat.le_refl _⟩

theorem grows_register (e : Engine) (spec : ResolvedSpec) (status : TaskStatus) :
    Grows e (e.register spec status) := by
  intro t old found
  rcases getElem?_register e spec status t with same | ⟨unknown, -⟩
  · exact ⟨old, same.trans found, .refl old⟩
  · cases unknown.symm.trans found

theorem grows_request (e : Engine) (t : TaskId) (waiter : Option WaiterId) :
    Grows e (e.request t waiter).1 := by
  have step := e.request_step t waiter
  generalize e.request t waiter = answer at step ⊢
  cases step with
  | refused err => exact grows_of_eq rfl
  | skipped task known full => exact grows_of_eq rfl
  | merged task known admits willing full overlap =>
      exact (grows_fold known waiter).trans (grows_of_eq rfl)
  | started task known admits willing room =>
      exact (grows_beginRun known false _).trans (grows_of_eq rfl)

theorem grows_finish (e : Engine) (id : RunId) (outcome : Outcome) :
    Grows e (e.finish id outcome) := by
  have step := e.finish_step id outcome
  generalize e.finish id outcome = after at step ⊢
  cases step with
  | unknown => exact grows_of_eq rfl
  | last run task found known settled => exact grows_conclude known outcome
  | closed run task found known owed closing =>
      exact (grows_conclude known outcome).trans (grows_of_eq rfl)
  | again run task found known owed admits =>
      exact (grows_conclude known outcome).trans
        (grows_beginRun (known_conclude known outcome) _ _)

theorem grows_abandon (e : Engine) (id : RunId) : Grows e (e.abandon id) := by
  unfold abandon
  split <;> exact grows_of_eq rfl

theorem Change.grows {l : Licence} (change : Change l e e') : Grows e e' := by
  cases change with
  | calm calm => exact calm.alike.grows
  | register spec status accepted room => exact grows_register e spec status
  | stop idle covers => exact grows_stop e
  | drain closing covers => exact grows_drainPending e
  | request t => exact grows_request e t none
  | requestWaiting t covers => exact (alike_drawSerial e t).grows.trans (grows_request _ t _)
  | detach w leaves => exact grows_detach e w
  | finish id outcome covers => exact grows_finish e id outcome
  | abandon id refuses covers => exact grows_abandon e id

theorem grows_perform {m : Move} (allowed : e.allows m = true) : Grows e (e.perform m) := by
  have changes := changes_perform allowed (Licence.suits_free e m)
  exact changes.keeps (P := Grows e) (fun _ _ last grown => grown.trans last.grows)
    (grows_of_eq rfl)

theorem grows_after {moves : List Move} (admitted : e.admits moves = true) :
    Grows e (e.after moves) := by
  induction moves generalizing e with
  | nil => exact grows_of_eq rfl
  | cons m moves ih =>
      obtain ⟨allowed, rest⟩ := (admits_cons ..).mp admitted
      exact (grows_perform allowed).trans (ih rest)

end Engine

end TaskEngine
