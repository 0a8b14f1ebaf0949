/-
  TaskEngine/Proofs/Notes.lean
  ============================
  **What is noted when no run comes to its end.**

  Only what belongs to the end of a run launches an owed run, is reported to the handler for
  failures and announces an outcome.  Whatever else happens leaves routine notes behind
  (`Note.isRoutine`), as `routine_perform` says for every move.  Most moves do even less: they leave
  the runs alone, and note nothing about any of them (`Engine.LeavesRuns`); those of managers and of
  the lanes do not even have to do with schedules (`Engine.Manages`).
-/
import TaskEngine.Proofs.Publishing

namespace TaskEngine

/-- Whether the handler for failures is called. -/
def Callback.isOfHandler : Callback → Bool
  | .onError _ | .onPanic _ => true
  | .engineBefore | .taskBefore | .work | .engineAfter | .taskAfter => false

/-- Whether the note has nothing to do with the end of a run: no run is finished, no outcome is
announced or reported to the handler, and no owed run begins. -/
def Note.isRoutine : Note → Bool
  | .published event _ => !event.kind.isRunFinished
  | .began _ merged => !merged
  | .finished .. => false
  | .called callback _ => !callback.isOfHandler
  | .requested .. | .armed .. | .ticked _ | .forwarded _ | .logged _ | .traced .. => true

/-- Whether the note has nothing to do with any run, and is not one of callers. -/
def Note.leavesRuns : Note → Bool
  | .published event _ => !event.kind.isAboutRun
  | .began .. | .finished .. | .called .. | .logged _ | .traced .. => false
  | .requested .. | .armed .. | .ticked _ | .forwarded _ => true

/-- Whether the note is one of the manager or of the lanes: it has to do with no run, no request and no
schedule, and is not one of callers. -/
def Note.isOfManager : Note → Bool
  | .published event _ => !event.kind.isAboutRun && event.kind != .tickScheduled
  | .forwarded _ => true
  | .requested .. | .armed .. | .ticked _ | .began .. | .finished .. | .called .. | .logged _
  | .traced .. => false

theorem Note.leavesRuns_of_isOfManager {n : Note} (h : n.isOfManager = true) :
    n.leavesRuns = true := by
  cases n with
  | published event task => exact (Bool.and_eq_true_iff.mp h).1
  | _ => first | rfl | cases h

theorem Note.isRoutine_of_leavesRuns {n : Note} (h : n.leavesRuns = true) : n.isRoutine = true := by
  cases n with
  | published event task =>
      simp only [leavesRuns, EventKind.isAboutRun, Bool.not_or, Bool.and_eq_true] at h
      exact h.2
  | _ => first | rfl | cases h

namespace Engine

/-- Whether the move has nothing to do with runs: it neither asks for one nor is part of one. -/
def Move.leavesRuns : Move → Bool
  | .clock _ | .add _ | .start _ | .cancel _ | .detach _ | .watch | .shutdown .. | .awaitShutdown _
  | .receive | .work _ => true
  | .request _ | .requestWaiting _ | .announce .. | .progress .. | .finish .. | .abandon _
  | .schedule _ | .remark _ => false

/-- Whether the move leaves routine notes behind: it finishes no run, announces no outcome and does
not report one to the handler. -/
def Move.isRoutine : Move → Bool
  | .finish .. => false
  | .announce _ event => !event.kind.isRunFinished
  | .remark note => note.isRoutine
  | .clock _ | .add _ | .start _ | .cancel _ | .request _ | .requestWaiting _ | .detach _
  | .progress .. | .abandon _ | .schedule _ | .watch | .shutdown .. | .awaitShutdown _ | .receive
  | .work _ => true

variable {e e' : Engine} {p q : Note → Prop}

/-! ## 1. Routine -/

theorem notes_publishAll (e : Engine) {events : List Event}
    (noted : ∀ event ∈ events, p (.published event none)) : Notes p e (e.publishAll events) := by
  rw [publishAll_eq]
  refine ⟨_, rfl, fun entry mem => ?_⟩
  obtain ⟨event, sent, rfl⟩ := List.mem_map.mp (List.mem_reverse.mp mem)
  exact noted event sent

theorem notes_beginRun (e : Engine) (t : TaskId) (merged : Bool) (waiters : List WaiterId)
    (noted : ∀ id, p (.began id merged)) : Notes p e (e.beginRun t merged waiters) := by
  unfold beginRun
  split
  · exact .refl e
  · exact notes_cons rfl (noted _)

/-- Only routine notes were left in between. -/
abbrev Routine (e e' : Engine) : Prop := Notes (·.isRoutine = true) e e'

theorem routine_request (e : Engine) (t : TaskId) (waiter : Option WaiterId) :
    Routine e (e.request t waiter).1 := by
  have answered (e' : Engine) (result : AdmissionResult) :
      Routine e' (e'.note (.requested t waiter result)) := notes_cons rfl rfl
  have step := e.request_step t waiter
  generalize e.request t waiter = answer at step ⊢
  cases step with
  | refused err => exact answered e _
  | skipped task known full =>
      have told : Routine e (e.publishAbout t { kind := .runSkipped, task := some task.name }) :=
        notes_cons rfl rfl
      exact told.trans (answered _ _)
  | merged task known admits willing full overlap =>
      have told : Routine e ((e.updateTask t (·.fold waiter)).publishAbout t
          { kind := .runMerged, task := some task.name }) := notes_cons rfl rfl
      exact told.trans (answered _ _)
  | started task known admits willing room =>
      exact (notes_beginRun e t false _ fun _ => rfl).trans (answered _ _)

/-! ## 2. What leaves runs alone -/

/-- The runs are as they were, and nothing was noted about any of them. -/
structure LeavesRuns (e e' : Engine) : Prop where
  runs : e'.runs = e.runs
  notes : Notes (·.leavesRuns = true) e e'

theorem LeavesRuns.trans {e'' : Engine} (first : LeavesRuns e e') (second : LeavesRuns e' e'') :
    LeavesRuns e e'' :=
  ⟨second.runs.trans first.runs, first.notes.trans second.notes⟩

theorem LeavesRuns.routine (h : LeavesRuns e e') : Routine e e' :=
  h.notes.mono fun _ => Note.isRoutine_of_leavesRuns

theorem leavesRuns_of_eq (runs : e'.runs = e.runs) (journal : e'.journal = e.journal) :
    LeavesRuns e e' :=
  ⟨runs, notes_nothing journal⟩

theorem leavesRuns_cons (runs : e'.runs = e.runs) {n : Note} {time : Instant}
    (journal : e'.journal = ⟨time, n⟩ :: e.journal) (other : n.leavesRuns = true) :
    LeavesRuns e e' :=
  ⟨runs, notes_cons journal other⟩

/-- A schedule does nothing to runs but ask for them. -/
theorem Stir.leavesRuns (stir : Stir e e') :
    LeavesRuns e e' ∨ ∃ t, e' = (e.request t none).1 := by
  cases stir with
  | setLoop t f keeps => exact .inl (leavesRuns_of_eq rfl rfl)
  | endLoop t cancelled => exact .inl (leavesRuns_of_eq rfl rfl)
  | armed t due => exact .inl (leavesRuns_cons rfl rfl rfl)
  | ticked t => exact .inl (leavesRuns_cons rfl rfl rfl)
  | announce event t scheduled =>
      refine .inl (leavesRuns_cons rfl rfl ?_)
      simp [Note.leavesRuns, scheduled, EventKind.isAboutRun, EventKind.isRunFinished]
  | request t => exact .inr ⟨t, rfl⟩

/-! ### What managers do -/

/-- The runs are as they were, and only managers and lanes left notes. -/
structure Manages (e e' : Engine) : Prop where
  runs : e'.runs = e.runs
  notes : Notes (·.isOfManager = true) e e'

theorem Manages.refl (e : Engine) : Manages e e := ⟨rfl, .refl e⟩

theorem Manages.trans {e'' : Engine} (first : Manages e e') (second : Manages e' e'') :
    Manages e e'' :=
  ⟨second.runs.trans first.runs, first.notes.trans second.notes⟩

theorem Manages.leavesRuns (h : Manages e e') : LeavesRuns e e' :=
  ⟨h.runs, h.notes.mono fun _ => Note.leavesRuns_of_isOfManager⟩

theorem manages_of_eq (runs : e'.runs = e.runs) (journal : e'.journal = e.journal) : Manages e e' :=
  ⟨runs, notes_nothing journal⟩

theorem manages_cons (runs : e'.runs = e.runs) {n : Note} {time : Instant}
    (journal : e'.journal = ⟨time, n⟩ :: e.journal) (own : n.isOfManager = true) : Manages e e' :=
  ⟨runs, notes_cons journal own⟩

theorem manages_emit (e : Engine) (event : Event) : Manages e (e.emit event) := by
  have passed : Notes (·.isOfManager = true) e
      ({ e with lanes := (emitTo e.lanes event).1 }.note (.forwarded event)) := notes_cons rfl rfl
  refine ⟨by rw [emit_eq], passed.trans (notes_publishAll _ fun report mem => ?_)⟩
  simp [Note.isOfManager, kind_of_mem_emitTo mem, EventKind.isAboutRun, EventKind.isRunFinished]

theorem manages_awaitWorkers (e : Engine) : Manages e e.awaitWorkers := by
  unfold awaitWorkers
  split <;> exact manages_of_eq rfl rfl

theorem manages_passOn (e : Engine) (event : Event) (cursor : Nat) :
    Manages e ({ e with cursor }.emit event) := by
  have read : Manages e { e with cursor } := manages_of_eq rfl rfl
  exact read.trans (manages_emit _ event)

theorem manages_receive (e : Engine) : Manages e e.receive := by
  have step := e.receive_step
  generalize e.receive = after at step ⊢
  cases step with
  | nothing idle => exact .refl e
  | passes event cursor receiving next goesOn => exact manages_passOn e event cursor
  | ends event cursor receiving next last =>
      have closed : Manages e ({ e with cursor }.emit event).closeLanes :=
        (manages_passOn e event cursor).trans (manages_of_eq rfl rfl)
      exact closed.trans (manages_awaitWorkers _)
  | awaits closing => exact manages_awaitWorkers e

theorem manages_workLane (e : Engine) (i : Nat) : Manages e (e.workLane i) := by
  have worked : Notes (·.isOfManager = true) e
      { e with lanes := (TaskEngine.workLane e.now e.lanes i).1 } := notes_nothing rfl
  refine ⟨by rw [workLane_eq], worked.trans (notes_publishAll _ fun report mem => ?_)⟩
  simp [Note.isOfManager, kind_of_mem_workLane mem, EventKind.isAboutRun, EventKind.isRunFinished]

theorem manages_beginFlush (e : Engine) (s : Shutdown) : Manages e (e.beginFlush s).1 := by
  unfold beginFlush
  split
  · exact .refl e
  · exact manages_of_eq rfl rfl
  · have taken : Manages e { e with dispatch := .idle } := manages_of_eq rfl rfl
    have passed : Manages e { e with dispatch := .idle }.forwardAll :=
      forward_keeps (P := Manages e)
        (fun e' event cursor _ left => left.trans (manages_passOn e' event cursor)) false _ taken
    exact passed.trans (manages_of_eq rfl rfl)

theorem manages_turnShutdown (e : Engine) (s : Shutdown) : Manages e (e.turnShutdown s).1 := by
  cases stage : s.stage with
  | awaitingPump =>
      simp only [turnShutdown, stage]
      exact .refl e
  | awaitingWorkers =>
      simp only [turnShutdown, stage]
      exact .refl e
  | draining =>
      simp only [turnShutdown, stage]
      split
      · have told : Manages e ({ e with phase := .stopped }.finalize.publish
            { kind := .allStoppedWithin }) := manages_cons rfl rfl rfl
        exact told.trans (manages_beginFlush _ s)
      · split
        · exact manages_cons rfl rfl rfl
        · exact .refl e

theorem manages_shutdown (e : Engine) (bound : Bound) (grace : Duration) :
    Manages e (e.shutdown bound grace).1 := by
  cases phase : e.phase with
  | stopped =>
      simp only [shutdown, phase]
      exact .refl e
  | notStarted =>
      simp only [shutdown, phase]
      have drained : Manages e { e with phase := .stopped }.finalize := manages_of_eq rfl rfl
      exact drained.trans (manages_beginFlush _ _)
  | running =>
      simp only [shutdown, phase]
      have asked : Manages e (e.beginStopping.publish { kind := .shutdownRequested }) :=
        manages_cons rfl rfl rfl
      exact asked.trans (manages_turnShutdown _ _)
  | stopping =>
      simp only [shutdown, phase]
      exact manages_turnShutdown e _

theorem manages_turnWatcher (e : Engine) : Manages e e.turnWatcher := by
  unfold turnWatcher
  dsimp only
  split
  · exact manages_cons rfl rfl rfl
  · exact manages_of_eq rfl rfl
  · exact manages_of_eq rfl rfl
  · exact manages_of_eq rfl rfl

theorem manages_start (e : Engine) (token : Token) : Manages e (e.start token).1 := by
  cases phase : e.phase with
  | notStarted =>
      simp only [start, phase]
      have pumped : Manages e { e with
          phase := .running
          runToken := (e.cancellation.child token).1
          cancellation := (e.cancellation.child token).2
          watching := true }.startPump :=
        manages_of_eq (aside_startPump _).runs (journal_startPump _)
      exact pumped.trans (manages_cons rfl rfl rfl)
  | _ =>
      simp only [start, phase]
      exact .refl e

theorem manages_perform {m : Move} (other : m.leavesRuns = true) :
    Manages e (e.perform m) := by
  cases m with
  | clock now => exact manages_of_eq rfl rfl
  | add spec =>
      rw [perform, add]
      repeat' split
      · exact .refl e
      · exact .refl e
      · exact .refl e
      · exact manages_cons rfl rfl rfl
  | start token => exact manages_start e token
  | cancel token => exact manages_of_eq rfl rfl
  | detach waiter => exact manages_of_eq rfl rfl
  | watch => exact manages_turnWatcher e
  | shutdown bound grace => exact manages_shutdown e bound grace
  | awaitShutdown s => exact manages_turnShutdown e s
  | receive => exact manages_receive e
  | work i => exact manages_workLane e i
  | _ => cases other

theorem leavesRuns_perform {m : Move} (other : m.leavesRuns = true) :
    LeavesRuns e (e.perform m) :=
  (manages_perform other).leavesRuns

/-! ## 3. Histories of routine -/

/-- Whatever does not belong to the end of a run leaves routine notes behind. -/
theorem routine_perform {m : Move} (routine : m.isRoutine = true) : Routine e (e.perform m) := by
  cases m with
  | request t => exact routine_request e t none
  | requestWaiting t => exact routine_request (e.drawSerial t) t _
  | announce id event => exact notes_cons rfl routine
  | progress id progress => exact notes_nothing rfl
  | finish id outcome => cases routine
  | abandon id =>
      rw [perform, Engine.abandon]
      split <;> exact notes_nothing rfl
  | schedule t =>
      refine (stirs_turnLoop e t).relates .refl .trans ?_
      intro e e' stir
      rcases stir.leavesRuns with left | ⟨t, rfl⟩
      · exact left.routine
      · exact routine_request e t none
  | remark note => exact notes_cons rfl routine
  | _ => exact (leavesRuns_perform rfl).routine

/-- The second state comes about from the first by routine moves alone. -/
def LeadsRoutinely (e e' : Engine) : Prop :=
  ∃ moves, e.admits moves = true ∧ (∀ m ∈ moves, m.isRoutine = true) ∧ e.after moves = e'

theorem LeadsRoutinely.refl (e : Engine) : LeadsRoutinely e e :=
  ⟨[], rfl, fun _ mem => absurd mem List.not_mem_nil, rfl⟩

theorem LeadsRoutinely.trans {e'' : Engine} (first : LeadsRoutinely e e')
    (second : LeadsRoutinely e' e'') : LeadsRoutinely e e'' := by
  obtain ⟨before, admitted, routine, rfl⟩ := first
  obtain ⟨rest, admitted', routine', rfl⟩ := second
  refine ⟨before ++ rest, (admits_append ..).mpr ⟨admitted, admitted'⟩, ?_, after_append ..⟩
  exact List.forall_mem_append.mpr ⟨routine, routine'⟩

theorem leadsRoutinely_perform {m : Move} (routine : m.isRoutine = true)
    (allowed : e.allows m = true) : LeadsRoutinely e (e.perform m) :=
  ⟨[m], (admits_cons ..).mpr ⟨allowed, rfl⟩, List.forall_mem_singleton.mpr routine, rfl⟩

theorem LeadsRoutinely.leads (h : LeadsRoutinely e e') : Leads e e' := by
  obtain ⟨moves, admitted, -, rfl⟩ := h
  exact ⟨moves, admitted, rfl⟩

theorem LeadsRoutinely.routine (h : LeadsRoutinely e e') : Routine e e' := by
  obtain ⟨moves, -, routine, rfl⟩ := h
  induction moves generalizing e with
  | nil => exact .refl e
  | cons m moves ih =>
      obtain ⟨first, rest⟩ := List.forall_mem_cons.mp routine
      exact (routine_perform first).trans (ih rest)

theorem leadsRoutinely_turnPump (e : Engine) : LeadsRoutinely e e.turnPump := by
  have receives (n : Nat) (e : Engine) : LeadsRoutinely e (e.after (List.replicate n .receive)) := by
    induction n generalizing e with
    | zero => exact .refl e
    | succ n ih => exact (leadsRoutinely_perform (m := .receive) rfl rfl).trans (ih _)
  obtain ⟨n, reads⟩ := turnPump_eq_receives e
  rw [reads]
  exact receives n e

/-! ## 4. Changes only add notes -/

theorem notes_finish (e : Engine) {id : RunId} {outcome : Outcome} (ends : p (.finished id outcome))
    (begins : ∀ id, p (.began id true)) : Notes p e (e.finish id outcome) := by
  have concluded {run : Run} (found : e.run? id = some run) (task : TaskRecord) :
      Notes p e (e.conclude run task outcome) := by
    obtain rfl : run.id = id := (mem_of_run? found).2
    exact notes_cons rfl ends
  have step := e.finish_step id outcome
  generalize e.finish id outcome = after at step ⊢
  cases step with
  | unknown => exact .refl e
  | last run task found known settled => exact concluded found task
  | closed run task found known owed closing =>
      exact (concluded found task).trans (notes_nothing rfl)
  | again run task found known owed admits =>
      exact (concluded found task).trans (notes_beginRun _ _ _ _ begins)

theorem Change.notes {l : Licence} (change : Change l e e') : Notes (fun _ => True) e e' := by
  cases change with
  | calm calm => exact calm.alike.notes.mono fun _ _ => trivial
  | register spec status accepted room => exact notes_cons rfl trivial
  | request t => exact (routine_request e t none).mono fun _ _ => trivial
  | requestWaiting t covers =>
      exact (routine_request (e.drawSerial t) t _).mono fun _ _ => trivial
  | finish id outcome covers => exact notes_finish e trivial fun _ => trivial
  | abandon id refuses covers =>
      unfold Engine.abandon
      split <;> exact notes_nothing rfl
  | _ => exact notes_nothing rfl

/-- What a move does is noted, and nothing is struck from the notes. -/
theorem notes_perform {m : Move} (allowed : e.allows m = true) :
    Notes (fun _ => True) e (e.perform m) :=
  (changes_perform allowed (Licence.suits_free e m)).keeps
    (fun _ _ change noted => noted.trans change.notes) (.refl e)

end Engine

end TaskEngine
