/-
  TaskEngine/Proofs/Tallies.lean
  ==============================
  **The tally of a task is that of its runs.**

  A record counts runs and outcomes and keeps marks of the last ones.  Along every history this
  tally is the one of the beginnings and the outcomes that are in the journal (`Engine.Tallied`):
  only the two ends of a run touch it (`Tally.of_begin`, `Tally.of_conclude`), and both are noted.
-/
import TaskEngine.Proofs.Capacity
import TaskEngine.Proofs.Notes

namespace TaskEngine

/-! ## 1. Outcomes, counted -/

namespace Outcome

/-- The kind of the event that announces the outcome. -/
def event : Outcome → EventKind
  | succeeded => .runSucceeded
  | failed _ => .runFailed
  | panicked _ => .runPanicked
  | canceled _ => .runCanceled

/-- Whether the run was cancelled, be it counted as a failure or not. -/
def isCancellation : Outcome → Bool
  | failed err => err.isCancellation
  | canceled _ => true
  | succeeded | panicked _ => false

theorem countP_isFailure (outcomes : List Outcome) :
    outcomes.countP (·.isFailure) =
      outcomes.countP (·.event == .runFailed) + outcomes.countP (·.event == .runPanicked) := by
  induction outcomes with
  | nil => rfl
  | cons outcome outcomes ih =>
      simp only [List.countP_cons, ih]
      cases outcome <;> simp [isFailure, event] <;> omega

/-- Every run has succeeded, failed or been cancelled. -/
theorem length_eq_countP (outcomes : List Outcome) :
    outcomes.length = outcomes.countP (·.event == .runSucceeded) +
      outcomes.countP (·.isFailure) + outcomes.countP (·.event == .runCanceled) := by
  induction outcomes with
  | nil => rfl
  | cons outcome outcomes ih =>
      simp only [List.length_cons, List.countP_cons, ih]
      cases outcome <;> simp [isFailure, event] <;> omega

end Outcome

namespace Tally

variable {begun : Nat} {outcomes : List Outcome}

def begin (tally : Tally) (now : Instant) : Tally :=
  { tally with runs := tally.runs + 1, lastStarted := some now }

def conclude (tally : Tally) (now : Instant) (outcome : Outcome) : Tally :=
  { tally with
    successes := tally.successes + if outcome.event == .runSucceeded then 1 else 0
    failures := tally.failures + if outcome.isFailure then 1 else 0
    panics := tally.panics + if outcome.event == .runPanicked then 1 else 0
    cancellations := tally.cancellations + if outcome.isCancellation then 1 else 0
    lastFinished := some now
    lastSuccess := if outcome.event == .runSucceeded then some now else tally.lastSuccess
    lastError := outcome.errorText?.or tally.lastError }

theorem of_begin (task : TaskRecord) (now : Instant) :
    (task.begin now).tally = task.tally.begin now := rfl

theorem of_conclude (task : TaskRecord) (phase : Phase) (now : Instant) (outcome : Outcome) :
    (task.conclude phase now outcome).tally = task.tally.conclude now outcome := by
  cases outcome <;> rfl

/-- The tally of so many beginnings and of these outcomes, the newest first. -/
structure Counts (tally : Tally) (begun : Nat) (outcomes : List Outcome) : Prop where
  runs : tally.runs = begun
  successes : tally.successes = outcomes.countP (·.event == .runSucceeded)
  failures : tally.failures = outcomes.countP (·.isFailure)
  panics : tally.panics = outcomes.countP (·.event == .runPanicked)
  cancellations : tally.cancellations = outcomes.countP (·.isCancellation)
  lastStarted : tally.lastStarted.isSome = true ↔ 0 < begun
  lastFinished : tally.lastFinished.isSome = true ↔ outcomes ≠ []
  lastSuccess : tally.lastSuccess.isSome = outcomes.any (·.event == .runSucceeded)
  lastError : tally.lastError = outcomes.findSome? (·.errorText?)

theorem counts_nothing : Counts {} 0 [] := by
  constructor <;> simp

theorem Counts.begin {tally : Tally} (h : tally.Counts begun outcomes) (now : Instant) :
    (tally.begin now).Counts (begun + 1) outcomes :=
  { h with
    runs := congrArg (· + 1) h.runs
    lastStarted := ⟨fun _ => Nat.succ_pos _, fun _ => rfl⟩ }

theorem Counts.conclude {tally : Tally} (h : tally.Counts begun outcomes) (now : Instant)
    (outcome : Outcome) : (tally.conclude now outcome).Counts begun (outcome :: outcomes) where
  runs := h.runs
  successes := by rw [List.countP_cons, ← h.successes]; rfl
  failures := by rw [List.countP_cons, ← h.failures]; rfl
  panics := by rw [List.countP_cons, ← h.panics]; rfl
  cancellations := by rw [List.countP_cons, ← h.cancellations]; rfl
  lastStarted := h.lastStarted
  lastFinished := ⟨fun _ => List.cons_ne_nil _ _, fun _ => rfl⟩
  lastSuccess := by
    rw [List.any_cons, ← h.lastSuccess, Tally.conclude]
    split <;> simp [*]
  lastError := by
    rw [List.findSome?_cons, ← h.lastError, Tally.conclude]
    cases outcome.errorText? <;> rfl

section Marks

variable {tally : Tally} (h : tally.Counts begun outcomes)

include h

theorem Counts.lastSuccess_isSome_iff : tally.lastSuccess.isSome = true ↔ 0 < tally.successes := by
  rw [h.lastSuccess, h.successes, List.any_eq_true, List.countP_pos_iff]

theorem Counts.lastError_isSome_iff : tally.lastError.isSome = true ↔ 0 < tally.failures := by
  rw [h.lastError, h.failures, List.findSome?_isSome_iff, List.countP_pos_iff]
  simp only [Outcome.errorText?_isSome]

end Marks

end Tally

abbrev TaskRecord.SameTally (old new : TaskRecord) : Prop := new.tally = old.tally

namespace Note

/-- Whether a run begins or ends. -/
def isOfRun : Note → Bool
  | .began .. | .finished .. => true
  | .published .. | .requested .. | .armed .. | .ticked _ | .forwarded _ | .called .. | .logged _
  | .traced .. => false

def finish? : Note → Option (RunId × Outcome)
  | .finished id outcome => some (id, outcome)
  | _ => none

theorem isOfRun_of_isRemark {n : Note} (h : n.isRemark = true) : n.isOfRun = false := by
  cases n <;> first | rfl | cases h

theorem begins_of_not_isOfRun {n : Note} (h : n.isOfRun = false) (t : TaskId) :
    n.begins t = false := by
  cases n <;> first | rfl | cases h

theorem finish?_of_not_isOfRun {n : Note} (h : n.isOfRun = false) : n.finish? = none := by
  cases n <;> first | rfl | cases h

theorem ends_eq (n : Note) (t : TaskId) : n.ends t = n.finish?.any (·.1.task == t) := by
  cases n <;> rfl

end Note

namespace Engine

variable {e e' : Engine} {t : TaskId}

/-! ## 2. What the journal says about ends -/

/-- The ends of runs, the newest first. -/
def finishes (e : Engine) : List (RunId × Outcome) := e.journal.filterMap (·.note.finish?)

/-- How the runs of task `t` ended, the newest first. -/
def outcomes (e : Engine) (t : TaskId) : List Outcome :=
  (e.finishes.filter (·.1.task == t)).map (·.2)

theorem length_outcomes (e : Engine) (t : TaskId) : (e.outcomes t).length = e.ended t := by
  rw [outcomes, List.length_map, ← List.countP_eq_length_filter, finishes, List.countP_filterMap]
  refine List.countP_congr fun entry _ => ?_
  rw [Note.ends_eq]
  cases entry.note.finish? <;> exact Iff.rfl

theorem outcomes_of_notes (h : Notes (·.finish? = none) e e') (t : TaskId) :
    e'.outcomes t = e.outcomes t := by
  rw [outcomes, finishes, filterMap_of_notes h]
  rfl

theorem finishes_conclude (e : Engine) (run : Run) (task : TaskRecord) (outcome : Outcome) :
    (e.conclude run task outcome).finishes = (run.id, outcome) :: e.finishes := rfl

theorem outcomes_conclude (e : Engine) (run : Run) (task : TaskRecord) (outcome : Outcome)
    (t : TaskId) : (e.conclude run task outcome).outcomes t =
      if run.id.task = t then outcome :: e.outcomes t else e.outcomes t := by
  rw [outcomes, finishes_conclude]
  split <;> simp [outcomes, *]

/-! ## 3. All tallies -/

/-- The tally of task `t`, which is blank as long as there is no such task. -/
def tallyOf (e : Engine) (t : TaskId) : Tally := ((e.tasks[t]?).map (·.tally)).getD {}

/-- The tallies of all tasks are those of what the journal says. -/
def Tallied (e : Engine) : Prop := ∀ t, (e.tallyOf t).Counts (e.begun t) (e.outcomes t)

theorem tallyOf_of_known {task : TaskRecord} (known : e.tasks[t]? = some task) :
    e.tallyOf t = task.tally :=
  readOf_of_known known

theorem tallyOf_of_forall₂ (tasks : List.Forall₂ TaskRecord.SameTally e.tasks e'.tasks)
    (t : TaskId) : e'.tallyOf t = e.tallyOf t :=
  readOf_of_forall₂ tasks (fun _ _ same => same) t

theorem tallyOf_updateTask (e : Engine) (s : TaskId) {f : TaskRecord → TaskRecord}
    (same : ∀ task, (f task).tally = task.tally) (t : TaskId) :
    (e.updateTask s f).tallyOf t = e.tallyOf t :=
  readOf_updateTask e s same t

theorem tallyOf_set {task new : TaskRecord} (known : e.tasks[t]? = some task)
    (tasks : e'.tasks = e.tasks.set t new) (s : TaskId) :
    e'.tallyOf s = if s = t then new.tally else e.tallyOf s :=
  readOf_set known tasks s

theorem tallied_create (config : Config) (subscribers : List Subscriber) :
    (create config subscribers).Tallied :=
  fun _ => Tally.counts_nothing

theorem Tallied.of_same (h : e.Tallied) (same : ∀ t, e'.tallyOf t = e.tallyOf t)
    (notes : Notes (·.isOfRun = false) e e') : e'.Tallied := by
  intro t
  have begun : e'.begun t = e.begun t :=
    countP_of_notes (notes.mono fun _ other => Note.begins_of_not_isOfRun other t)
  rw [same, begun, outcomes_of_notes (notes.mono fun _ => Note.finish?_of_not_isOfRun)]
  exact h t

theorem Tallied.note (h : e.Tallied) {n : Note} (other : n.isOfRun = false) : (e.note n).Tallied :=
  h.of_same (fun _ => rfl) (notes_cons rfl other)

theorem Tallied.of_alike (h : e.Tallied) (alike : Alike e e') : e'.Tallied :=
  h.of_same (tallyOf_of_forall₂ (alike.tasks.imp fun _ _ alike => alike.tally))
    (alike.notes.mono fun _ => Note.isOfRun_of_isRemark)

theorem tallyOf_register (e : Engine) (spec : ResolvedSpec) (status : TaskStatus) (t : TaskId) :
    (e.register spec status).tallyOf t = e.tallyOf t :=
  readOf_register (alike_newRecord e spec status).tally t

theorem Tallied.beginRun {task : TaskRecord} (h : e.Tallied) (known : e.tasks[t]? = some task)
    (merged : Bool) (waiters : List WaiterId) : (e.beginRun t merged waiters).Tallied := by
  intro s
  have ends := outcomes_of_notes (t := s)
    (notes_beginRun (p := (·.finish? = none)) e t merged waiters fun _ => rfl)
  rw [begun_beginRun known, ends, tallyOf_set known (by rw [beginRun_eq known])]
  by_cases same : s = t
  · subst same
    rw [if_pos rfl, if_pos rfl, Tally.of_begin, ← tallyOf_of_known known]
    exact (h s).begin e.now
  · rw [if_neg same, if_neg same]
    exact h s

theorem Tallied.conclude {run : Run} {task : TaskRecord} (h : e.Tallied)
    (known : e.tasks[run.id.task]? = some task) (outcome : Outcome) :
    (e.conclude run task outcome).Tallied := by
  intro s
  have begun : (e.conclude run task outcome).begun s = e.begun s :=
    List.countP_cons_of_neg Bool.false_ne_true
  rw [begun, outcomes_conclude, tallyOf_set known rfl]
  by_cases same : s = run.id.task
  · subst same
    rw [if_pos rfl, if_pos rfl, Tally.of_conclude, ← tallyOf_of_known known]
    exact (h _).conclude e.now outcome
  · rw [if_neg same, if_neg (Ne.symm same)]
    exact h s

theorem Tallied.request (h : e.Tallied) (t : TaskId) (waiter : Option WaiterId) :
    (e.request t waiter).1.Tallied := by
  have step := e.request_step t waiter
  generalize e.request t waiter = answer at step ⊢
  cases step with
  | refused err => exact h.note rfl
  | skipped task known full => exact (h.of_alike (aside_announce ..).alike).note rfl
  | merged task known admits willing full overlap =>
      have folded : (e.updateTask t (·.fold waiter)).Tallied :=
        h.of_same (tallyOf_updateTask e t fun _ => rfl) (notes_nothing rfl)
      exact (folded.of_alike (aside_announce ..).alike).note rfl
  | started task known admits willing room => exact (h.beginRun known false _).note rfl

theorem Tallied.finish (h : e.Tallied) (id : RunId) (outcome : Outcome) :
    (e.finish id outcome).Tallied := by
  have step := e.finish_step id outcome
  generalize e.finish id outcome = after at step ⊢
  cases step with
  | unknown => exact h
  | last run task found known settled => exact h.conclude known outcome
  | closed run task found known owed closing =>
      exact (h.conclude known outcome).of_same (fun _ => rfl) (notes_nothing rfl)
  | again run task found known owed admits =>
      exact (h.conclude known outcome).beginRun (known_conclude known outcome) _ _

theorem Tallied.change {l : Licence} (change : Change l e e') (h : e.Tallied) : e'.Tallied := by
  cases change with
  | calm calm => exact h.of_alike calm.alike
  | register spec status accepted room =>
      exact h.of_same (tallyOf_register e spec status) (notes_cons rfl rfl)
  | stop idle covers =>
      exact h.of_same (tallyOf_of_forall₂ (e.forall₂_stop.imp fun _ _ final => final ▸ rfl))
        (notes_nothing rfl)
  | drain closing covers =>
      exact h.of_same (tallyOf_of_forall₂ (e.forall₂_drainPending.imp fun _ _ forgotten =>
        forgotten ▸ rfl)) (notes_nothing rfl)
  | request t => exact h.request t none
  | requestWaiting t covers => exact (h.of_alike (alike_drawSerial e t)).request t _
  | detach w leaves =>
      exact h.of_same (tallyOf_updateTask e w.task fun _ => rfl) (notes_nothing rfl)
  | finish id outcome covers => exact h.finish id outcome
  | abandon id refuses covers =>
      unfold Engine.abandon
      split
      · exact h.of_same (fun _ => rfl) (notes_nothing rfl)
      · exact h

end Engine

end TaskEngine
