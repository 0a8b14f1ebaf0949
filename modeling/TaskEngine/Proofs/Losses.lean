/-
  TaskEngine/Proofs/Losses.lean
  =============================
  **What becomes of the runs that begin.**

  A run that has begun is in flight until it ends, or until its work refuses the call: then it is gone
  without an end, and nobody gives its place back (`Engine.lost`).  Every run that has begun is in
  exactly one of these three places (`Charted`).  So the places that a task has taken are those of
  its runs in flight and of its lost runs (`Audited.running_eq`).
-/
import TaskEngine.Proofs.Beginnings
import TaskEngine.Proofs.Tallies

namespace TaskEngine

namespace Note

def begun? : Note → Option RunId
  | .began id _ => some id
  | _ => none

theorem begun?_of_not_isOfRun {n : Note} (h : n.isOfRun = false) : n.begun? = none := by
  cases n <;> first | rfl | cases h

theorem begins_eq (n : Note) (t : TaskId) : n.begins t = n.begun?.any (·.task == t) := by
  cases n <;> rfl

end Note

namespace Engine

variable {e e' : Engine} {t : TaskId} {id : RunId}

/-! ## 1. Begun, ended and lost -/

/-- The runs that have begun, the newest first. -/
def beginnings (e : Engine) : List RunId := e.journal.filterMap (·.note.begun?)

/-- Whether the run is not in flight and has not ended. -/
def isMissing (e : Engine) (id : RunId) : Bool :=
  id ∉ e.runs.map (·.id) ∧ id ∉ e.finishes.map (·.1)

/-- The runs that have begun, are not in flight and have not ended. -/
def lost (e : Engine) : List RunId := e.beginnings.filter e.isMissing

theorem mem_beginnings : id ∈ e.beginnings ↔ e.hasBegun id := by
  constructor
  · intro mem
    obtain ⟨entry, noted, begins⟩ := List.mem_filterMap.mp mem
    cases note : entry.note with
    | began own merged =>
        rw [note] at begins
        obtain rfl : own = id := Option.some.inj begins
        exact ⟨entry, noted, merged, note⟩
    | _ =>
        rw [note] at begins
        cases begins
  · rintro ⟨entry, mem, merged, begins⟩
    exact List.mem_filterMap.mpr ⟨entry, mem, by rw [begins]; rfl⟩

theorem countP_beginnings (e : Engine) (t : TaskId) :
    e.beginnings.countP (·.task == t) = e.begun t := by
  rw [beginnings, List.countP_filterMap]
  refine List.countP_congr fun entry _ => ?_
  rw [Note.begins_eq]
  cases entry.note.begun? <;> exact Iff.rfl

theorem countP_finishes (e : Engine) (t : TaskId) :
    (e.finishes.map (·.1)).countP (·.task == t) = e.ended t := by
  rw [← length_outcomes, outcomes, List.length_map, ← List.countP_eq_length_filter, List.countP_map]
  rfl

theorem countP_ids (e : Engine) (t : TaskId) :
    (e.runs.map (·.id)).countP (·.task == t) = e.inFlight t := by
  rw [inFlight, List.countP_map, List.countP_map]
  rfl

/-- The work of the run refuses its call. -/
def Refused (e : Engine) (id : RunId) : Prop :=
  ∃ task, e.tasks[id.task]? = some task ∧ task.spec.work.refuses id.number = true

theorem Refused.later (h : e.Refused id) (grows : Grows e e') : e'.Refused id := by
  obtain ⟨task, known, refuses⟩ := h
  obtain ⟨new, known', later⟩ := grows _ task known
  exact ⟨new, known', later.spec ▸ refuses⟩

/-! ## 2. No run is anywhere else -/

/-- No run begins twice, and those that have begun are in flight, have ended, or are gone, each in one
way; the work of those that are gone refused the call. -/
structure Charted (e : Engine) : Prop where
  distinct : e.beginnings.Nodup
  courses : ∃ gone, e.beginnings.Perm (e.runs.map (·.id) ++ (e.finishes.map (·.1) ++ gone)) ∧
    ∀ id ∈ gone, e.Refused id

theorem charted_create (config : Config) (subscribers : List Subscriber) :
    (create config subscribers).Charted :=
  ⟨List.nodup_nil, [], .refl _, nofun⟩

theorem Charted.of_same (h : e.Charted) (grows : Grows e e') (notes : Notes (·.isOfRun = false) e e')
    (ids : e'.runs.map (·.id) = e.runs.map (·.id)) : e'.Charted := by
  have beginnings : e'.beginnings = e.beginnings :=
    filterMap_of_notes (notes.mono fun _ => Note.begun?_of_not_isOfRun)
  have finishes : e'.finishes = e.finishes :=
    filterMap_of_notes (notes.mono fun _ => Note.finish?_of_not_isOfRun)
  obtain ⟨distinct, gone, courses, refused⟩ := h
  refine ⟨beginnings ▸ distinct, gone, ?_, fun id mem => (refused id mem).later grows⟩
  rw [beginnings, finishes, ids]
  exact courses

theorem Charted.of_alike (h : e.Charted) (alike : Alike e e') : e'.Charted := by
  refine h.of_same alike.grows (alike.notes.mono fun _ => Note.isOfRun_of_isRemark) ?_
  have ids (e : Engine) : e.runs.map (·.id) = (e.runs.map (·.berth)).map (·.1) := by
    rw [List.map_map]
    rfl
  rw [ids, alike.runs, ← ids]

theorem Charted.note (h : e.Charted) {n : Note} (other : n.isOfRun = false) : (e.note n).Charted :=
  h.of_same (grows_of_eq rfl) (notes_cons rfl other) rfl

theorem Charted.beginRun {task : TaskRecord} (h : e.Charted) (numbered : e.Numbered)
    (known : e.tasks[t]? = some task) (merged : Bool) (waiters : List WaiterId) :
    (e.beginRun t merged waiters).Charted := by
  have grows := grows_beginRun known merged waiters
  rw [beginRun_eq known] at grows ⊢
  obtain ⟨distinct, gone, courses, refused⟩ := h
  refine ⟨List.nodup_cons.mpr ⟨fun used => ?_, distinct⟩, gone, ?_,
    fun id mem => (refused id mem).later grows⟩
  · -- the number that is given out lies above those in use
    obtain ⟨old, known', below⟩ := numbered.begun _ (mem_beginnings.mp used)
    obtain rfl : task = old := Option.some.inj (known.symm.trans known')
    exact absurd below (Nat.not_succ_le_self _)
  · have begins := (courses.cons ⟨t, task.runCount + 1⟩).trans List.perm_middle.symm
    rw [List.map_append, List.append_assoc]
    exact begins

/-- A run that is removed has ended or is gone. -/
theorem Charted.remove {run : Run} (h : e.Charted) (unique : (e.runs.map (·.id)).Nodup)
    (mem : run ∈ e.runs) : ∃ gone,
      e.beginnings.Perm ((e.removeRun run.id).runs.map (·.id) ++
        run.id :: (e.finishes.map (·.1) ++ gone)) ∧ ∀ id ∈ gone, e.Refused id := by
  obtain ⟨-, gone, courses, refused⟩ := h
  have removed := (perm_cons_filter_ne unique mem).map (·.id)
  have others := courses.trans (removed.append_right (e.finishes.map (·.1) ++ gone))
  exact ⟨gone, others.trans List.perm_middle.symm, refused⟩

theorem Charted.conclude {run : Run} {task : TaskRecord} (h : e.Charted)
    (unique : (e.runs.map (·.id)).Nodup) (mem : run ∈ e.runs)
    (known : e.tasks[run.id.task]? = some task) (outcome : Outcome) :
    (e.conclude run task outcome).Charted := by
  obtain ⟨gone, courses, refused⟩ := h.remove unique mem
  exact ⟨h.distinct, gone, courses,
    fun id mem => (refused id mem).later (grows_conclude known outcome)⟩

theorem Charted.abandon (h : e.Charted) (unique : (e.runs.map (·.id)).Nodup) (refuses : e.Refused id) :
    (e.abandon id).Charted := by
  unfold Engine.abandon
  cases found : e.run? id with
  | none => exact h
  | some run =>
      obtain ⟨mem, rfl⟩ := mem_of_run? found
      obtain ⟨gone, courses, refused⟩ := h.remove unique mem
      have left := courses.trans (List.perm_middle.symm.append_left _)
      exact ⟨h.distinct, run.id :: gone, left, List.forall_mem_cons.mpr ⟨refuses, refused⟩⟩

theorem Charted.request (h : e.Charted) (numbered : e.Numbered) (t : TaskId)
    (waiter : Option WaiterId) : (e.request t waiter).1.Charted := by
  have step := e.request_step t waiter
  generalize e.request t waiter = answer at step ⊢
  cases step with
  | refused err => exact h.note rfl
  | skipped task known full => exact (h.of_alike (aside_announce ..).alike).note rfl
  | merged task known admits willing full overlap =>
      have folded : (e.updateTask t (·.fold waiter)).Charted :=
        h.of_same (grows_fold known waiter) (notes_nothing rfl) rfl
      exact (folded.of_alike (aside_announce ..).alike).note rfl
  | started task known admits willing room => exact (h.beginRun numbered known false _).note rfl

theorem Charted.finish (h : e.Charted) (unique : (e.runs.map (·.id)).Nodup) (numbered : e.Numbered)
    (id : RunId) (outcome : Outcome) : (e.finish id outcome).Charted := by
  have step := e.finish_step id outcome
  generalize e.finish id outcome = after at step ⊢
  cases step with
  | unknown => exact h
  | last run task found known settled =>
      exact h.conclude unique (mem_of_run? found).1 known outcome
  | closed run task found known owed closing =>
      have concluded := h.conclude unique (mem_of_run? found).1 known outcome
      exact concluded.of_same (grows_of_eq rfl) (notes_nothing rfl) rfl
  | again run task found known owed admits =>
      have concluded := h.conclude unique (mem_of_run? found).1 known outcome
      exact concluded.beginRun (numbered.conclude known outcome) (known_conclude known outcome) _ _

theorem Charted.change {l : Licence} (change : Change l e e') (housed : e.Housed)
    (numbered : e.Numbered) (h : e.Charted) : e'.Charted := by
  cases change with
  | calm calm => exact h.of_alike calm.alike
  | register spec status accepted room =>
      exact h.of_same (grows_register e spec status) (notes_cons rfl rfl) rfl
  | stop idle covers => exact h.of_same (grows_stop e) (notes_nothing rfl) rfl
  | drain closing covers => exact h.of_same (grows_drainPending e) (notes_nothing rfl) rfl
  | request t => exact h.request numbered t none
  | requestWaiting t covers =>
      have drawn := alike_drawSerial e t
      exact (h.of_alike drawn).request (numbered.of_alike drawn) t _
  | detach w leaves => exact h.of_same (grows_detach e w) (notes_nothing rfl) rfl
  | finish id outcome covers => exact h.finish housed.unique numbered id outcome
  | abandon id refuses covers => exact h.abandon housed.unique refuses

/-- The lost runs are those that are gone. -/
theorem Charted.lost (h : e.Charted) :
    e.beginnings.Perm (e.runs.map (·.id) ++ (e.finishes.map (·.1) ++ e.lost)) ∧
      ∀ id ∈ e.lost, e.Refused id := by
  obtain ⟨distinct, gone, courses, refused⟩ := h
  have apart := courses.nodup distinct
  obtain ⟨-, ended, fromRuns⟩ := List.nodup_append.mp apart
  obtain ⟨-, -, fromEnds⟩ := List.nodup_append.mp ended
  have is : e.lost.Perm gone := by
    have missing := courses.filter e.isMissing
    have flying : (e.runs.map (·.id)).filter e.isMissing = [] :=
      List.filter_eq_nil_iff.mpr fun id mem missing => (of_decide_eq_true missing).1 mem
    have finished : (e.finishes.map (·.1)).filter e.isMissing = [] :=
      List.filter_eq_nil_iff.mpr fun id mem missing => (of_decide_eq_true missing).2 mem
    have others : gone.filter e.isMissing = gone := by
      refine List.filter_eq_self.mpr fun id mem => decide_eq_true ⟨fun flies => ?_, fun ends => ?_⟩
      · exact fromRuns id flies id (List.mem_append_right _ mem) rfl
      · exact fromEnds id ends id mem rfl
    rwa [List.filter_append, List.filter_append, flying, finished, others] at missing
  refine ⟨courses.trans ((is.symm.append_left _).append_left _), fun id mem => ?_⟩
  exact refused id (is.mem_iff.mp mem)

/-! ## 3. The places of a task -/

/-- What the books of an engine say of its runs and places. -/
structure Audited (e : Engine) : Prop where
  sound : e.Sound
  housed : e.Housed
  numbered : e.Numbered
  charted : e.Charted

theorem audited_create (config : Config) (subscribers : List Subscriber) :
    (create config subscribers).Audited :=
  ⟨sound_create .., housed_create .., numbered_create .., charted_create ..⟩

theorem Audited.change {l : Licence} (change : Change l e e') (h : e.Audited) : e'.Audited :=
  ⟨h.sound.change change, h.housed.change change, h.numbered.change change,
    h.charted.change change h.housed h.numbered⟩

theorem audited_after (config : Config) (subscribers : List Subscriber) {moves : List Move}
    (admitted : (create config subscribers).admits moves = true) :
    ((create config subscribers).after moves).Audited :=
  keeps_after (fun _ _ _ => Audited.change) admitted (audited_create config subscribers)

/-- The places that a task has taken are those of its runs in flight and of its lost runs. -/
theorem Audited.running_eq {task : TaskRecord} (h : e.Audited) (known : e.tasks[t]? = some task) :
    task.running = e.inFlight t + e.lost.countP (·.task == t) := by
  have counted := (h.sound.known t task known).counted
  have courses := h.charted.lost.1.countP_eq (·.task == t)
  rw [List.countP_append, List.countP_append, countP_beginnings, countP_ids, countP_finishes] at courses
  omega

/-- A run that has ended is not lost. -/
theorem not_mem_lost_of_finished {outcome : Outcome} (ended : (id, outcome) ∈ e.finishes) :
    id ∉ e.lost := by
  intro mem
  obtain ⟨-, -, unended⟩ := (List.mem_filter.mp mem).imp_right of_decide_eq_true
  exact unended (List.mem_map_of_mem ended)

end Engine

end TaskEngine
