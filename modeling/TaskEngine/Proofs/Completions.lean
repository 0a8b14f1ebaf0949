/-
  TaskEngine/Proofs/Completions.lean
  ==================================
  **What a schedule hears of the runs of its task.**

  A record counts the ends of the runs of its task and keeps the moment of the last one, so that a
  schedule that listens can tell what has happened since.  Both are what the journal says
  (`Hears`), whoever asked for the runs and however they ended.

  Together with what the schedule itself notes, the ends make up its strokes: its timer is armed, it
  ticks, a run of its task ends.  Whatever leaves a schedule alone adds nothing to them but, perhaps,
  the end of one run, in the same instant (`Spares.overhears`).
-/
import TaskEngine.Proofs.Schedules

namespace TaskEngine

/-- What notes say about the timer of a schedule and about the runs of its task. -/
inductive Stroke where
  | armed (due : Instant)
  | ticked
  /-- A run of the task ended. -/
  | ended
deriving DecidableEq, Repr

/-- What a note says about the schedule of task `t` or about the runs that it listens for. -/
def Note.stroke? (t : TaskId) : Note → Option Stroke
  | .armed s due => if s = t then some (.armed due) else none
  | .ticked s => if s = t then some .ticked else none
  | .finished id _ => if id.task = t then some .ended else none
  | .published .. | .requested .. | .began .. | .forwarded _ | .called .. | .logged _ | .traced .. =>
      none

/-- What ends no run is a stroke only if it is a beat of the schedule itself. -/
theorem Note.stroke?_eq_none {n : Note} {t : TaskId} (routine : n.isRoutine = true)
    (quiet : ∀ beat, n.beat? t = some beat → beat.isAnswer = true) : n.stroke? t = none := by
  cases n with
  | armed s due =>
      refine if_neg fun own => ?_
      cases quiet (.armed due) (if_pos own)
  | ticked s =>
      refine if_neg fun own => ?_
      cases quiet .ticked (if_pos own)
  | finished id outcome => cases routine
  | _ => rfl

theorem Note.stroke?_of_isOfCallers {n : Note} (h : n.isOfCallers = true) (t : TaskId) :
    n.stroke? t = none := by
  cases n <;> first | rfl | cases h

def Entry.stroke? (t : TaskId) (entry : Entry) : Option (Instant × Stroke) :=
  (entry.note.stroke? t).map (entry.time, ·)

/-- The moments at which runs ended, in the order of the strokes. -/
def endMoments (strokes : List (Instant × Stroke)) : List Instant :=
  strokes.filterMap fun
    | (time, .ended) => some time
    | _ => none

/-- What schedules can hear of the ends of runs: how many there were, and when the last one was. -/
def TaskRecord.heard (task : TaskRecord) : Nat × Instant := (task.completions, task.completedAt)

namespace TaskRecord

theorem heard_markStopping (task : TaskRecord) : task.markStopping.heard = task.heard := by
  unfold markStopping
  split <;> rfl

theorem heard_ensureLoop (task : TaskRecord) : task.ensureLoop.heard = task.heard := by
  unfold ensureLoop
  split <;> rfl

theorem heard_setUp (task : TaskRecord) : task.activate.ensureLoop.heard = task.heard := by
  rw [heard_ensureLoop]
  unfold activate
  split <;> rfl

theorem heard_conclude (task : TaskRecord) (phase : Phase) (now : Instant) (outcome : Outcome) :
    (task.conclude phase now outcome).heard = (task.completions + 1, now) := by
  rw [heard, conclude, count_eq]

end TaskRecord

namespace Engine

variable {e e' : Engine} {s t : TaskId}

/-! ## 1. Strokes -/

/-- The strokes of the schedule of task `t`, with the times, the newest first. -/
def strokes (e : Engine) (t : TaskId) : List (Instant × Stroke) := e.journal.filterMap (·.stroke? t)

/-- The moments at which runs of task `t` ended, the newest first. -/
def endings (e : Engine) (t : TaskId) : List Instant := endMoments (e.strokes t)

theorem strokes_of_notes (silent : Notes (·.stroke? t = none) e e') :
    e'.strokes t = e.strokes t := by
  obtain ⟨entries, journal, quiet⟩ := silent
  have none : entries.filterMap (·.stroke? t) = [] :=
    List.filterMap_eq_nil_iff.mpr fun entry mem => by rw [Entry.stroke?, quiet entry mem]; rfl
  rw [strokes, journal, List.filterMap_append, none, List.nil_append, strokes]

theorem strokes_note (e : Engine) (n : Note) :
    (e.note n).strokes t = ((n.stroke? t).map (e.now, ·)).toList ++ e.strokes t := by
  rw [strokes, note, List.filterMap_cons]
  cases stroke : n.stroke? t <;> simp [Entry.stroke?, stroke, strokes]

theorem endMoments_entries (t : TaskId) (entries : List Entry) :
    endMoments (entries.filterMap (·.stroke? t)) = (entries.filter (·.note.ends t)).map (·.time) := by
  rw [endMoments, List.filterMap_filterMap, ← List.filterMap_eq_map, List.filterMap_filter]
  refine List.filterMap_congr fun entry _ => ?_
  obtain ⟨time, note⟩ := entry
  cases note with
  | finished id outcome =>
      by_cases own : id.task = t <;> simp [Entry.stroke?, Note.stroke?, Note.ends, own]
  | armed s due => by_cases own : s = t <;> simp [Entry.stroke?, Note.stroke?, Note.ends, own]
  | ticked s => by_cases own : s = t <;> simp [Entry.stroke?, Note.stroke?, Note.ends, own]
  | _ => rfl

theorem endings_eq (e : Engine) (t : TaskId) :
    e.endings t = (e.journal.filter (·.note.ends t)).map (·.time) :=
  endMoments_entries t e.journal

theorem length_endings (e : Engine) (t : TaskId) : (e.endings t).length = e.ended t := by
  rw [endings_eq, List.length_map, ← List.countP_eq_length_filter, ended]

theorem endings_of_notes (silent : Notes (·.ends t = false) e e') : e'.endings t = e.endings t := by
  obtain ⟨entries, journal, quiet⟩ := silent
  have none : entries.filter (·.note.ends t) = [] :=
    List.filter_eq_nil_iff.mpr fun entry mem => Bool.eq_false_iff.mp (quiet entry mem)
  rw [endings_eq, endings_eq, journal, List.filter_append, none, List.nil_append]

/-! ## 2. What is heard is what happened -/

/-- What schedules of task `t` can hear. -/
def heardOf (e : Engine) (t : TaskId) : Nat × Instant := e.readOf (·.heard) (0, .zero) t

/-- The count of the ends, and the moment of the last one, are those in the journal. -/
def Hears (e : Engine) : Prop :=
  ∀ t, e.heardOf t = ((e.endings t).length, (e.endings t).head?.getD .zero)

theorem hears_create (config : Config) (subscribers : List Subscriber) :
    (create config subscribers).Hears :=
  fun _ => rfl

theorem Hears.of_same (h : e.Hears) (same : ∀ t, e'.heardOf t = e.heardOf t)
    (silent : ∀ t, Notes (·.ends t = false) e e') : e'.Hears := by
  intro t
  rw [same, endings_of_notes (silent t)]
  exact h t

/-- Calm changes leave the account of ends alone. -/
theorem Calm.heard (calm : Calm e e') : e'.tasks.map (·.heard) = e.tasks.map (·.heard) := by
  have modified {t : TaskId} {f : TaskRecord → TaskRecord} (same : ∀ task, (f task).heard = task.heard) :
      (e.tasks.modify t f).map (·.heard) = e.tasks.map (·.heard) :=
    map_eq_of_forall₂ (forall₂_modify (R := fun old new => new.heard = old.heard) (fun _ => rfl) same
      _ t) fun _ _ same => same
  cases calm with
  | announce event task due => rw [(aside_announce e event task).tasks]
  | beginFlush s stopped => rw [(aside_beginFlush e s).tasks]
  | receive => rw [(aside_receive e).tasks]
  | work i => rw [(aside_workLane e i).tasks]
  | start token fresh =>
      show (List.map _ (List.map _ _)) = _
      rw [(aside_startPump _).tasks, List.map_map]
      exact List.map_congr_left fun task _ => task.heard_setUp
  | beginStopping running =>
      show (List.map _ (List.map _ _)) = _
      rw [List.map_map]
      exact List.map_congr_left fun task _ => task.heard_markStopping
  | setLoop t f keeps => exact modified fun task => by rw [keeps task]; rfl
  | endLoop t cancelled => exact modified fun task => TaskRecord.heard_markStopping _
  | _ => rfl

theorem heard_newRecord (e : Engine) (spec : ResolvedSpec) (status : TaskStatus) :
    (e.newRecord spec status).heard = (0, .zero) := by
  unfold newRecord
  split
  · exact TaskRecord.heard_ensureLoop _
  · rfl
  · rfl
  · rfl

/-- A change of one record that has nothing to do with ends. -/
theorem Hears.of_set {task : TaskRecord} (h : e.Hears) (known : e.tasks[s]? = some task)
    (new : TaskRecord) (tasks : e'.tasks = e.tasks.set s new) (same : new.heard = task.heard)
    (silent : ∀ t, Notes (·.ends t = false) e e') : e'.Hears := by
  refine h.of_same (fun t => ?_) silent
  rw [heardOf, readOf_set known tasks]
  split
  · rename_i here
    rw [same, here, heardOf, readOf_of_known known]
  · rfl

theorem Hears.beginRun (h : e.Hears) (t : TaskId) (merged : Bool) (waiters : List WaiterId) :
    (e.beginRun t merged waiters).Hears := by
  rcases known : e.tasks[t]? with _ | task
  · rw [Engine.beginRun, known]
    exact h
  · exact h.of_set known (task.begin e.now) (by rw [beginRun_eq known]) rfl
      fun _ => notes_beginRun e t merged waiters fun _ => rfl

/-- The end of a run is counted, and its moment kept. -/
theorem Hears.conclude {run : Run} {task : TaskRecord} (h : e.Hears)
    (known : e.tasks[run.id.task]? = some task) (outcome : Outcome) :
    (e.conclude run task outcome).Hears := by
  intro t
  have journal : (e.conclude run task outcome).endings t =
      if run.id.task = t then e.now :: e.endings t else e.endings t := by
    rw [endings_eq, endings_eq]
    show (List.filter _ (⟨e.now, .finished run.id outcome⟩ :: e.journal)).map _ = _
    by_cases own : run.id.task = t <;> simp [Note.ends, own]
  rw [heardOf, readOf_set known rfl, journal]
  by_cases own : t = run.id.task
  · subst own
    have count : task.completions = (e.endings run.id.task).length := by
      have before := h run.id.task
      rw [heardOf, readOf_of_known known] at before
      exact congrArg Prod.fst before
    rw [if_pos rfl, if_pos rfl, TaskRecord.heard_conclude, count]
    rfl
  · rw [if_neg own, if_neg (Ne.symm own)]
    exact h t

theorem Hears.request (h : e.Hears) (t : TaskId) (waiter : Option WaiterId) :
    (e.request t waiter).1.Hears := by
  have noted {e : Engine} (h : e.Hears) {n : Note} (silent : ∀ t, n.ends t = false) :
      (e.note n).Hears := h.of_same (fun _ => rfl) fun t => notes_cons rfl (silent t)
  have step := e.request_step t waiter
  generalize e.request t waiter = answer at step ⊢
  cases step with
  | refused err => exact noted h fun _ => rfl
  | skipped task known full =>
      have told : (e.publishAbout t { kind := .runSkipped, task := some task.name }).Hears :=
        h.of_same (fun _ => rfl) fun _ => notes_cons rfl rfl
      exact noted told fun _ => rfl
  | merged task known admits willing full overlap =>
      have folded : ((e.updateTask t (·.fold waiter)).publishAbout t
          { kind := .runMerged, task := some task.name }).Hears :=
        h.of_set known (task.fold waiter) (modify_eq_set_of_getElem? known _) rfl
          fun _ => notes_cons rfl rfl
      exact noted folded fun _ => rfl
  | started task known admits willing room => exact noted (h.beginRun t false _) fun _ => rfl

theorem Hears.finish (h : e.Hears) (id : RunId) (outcome : Outcome) :
    (e.finish id outcome).Hears := by
  have step := e.finish_step id outcome
  generalize e.finish id outcome = after at step ⊢
  cases step with
  | unknown => exact h
  | last run task found known settled => exact h.conclude known outcome
  | closed run task found known owed closing => exact h.conclude known outcome
  | again run task found known owed admits => exact (h.conclude known outcome).beginRun _ _ _

theorem Hears.change {l : Licence} (change : Change l e e') (h : e.Hears) : e'.Hears := by
  have kept {R : TaskRecord → TaskRecord → Prop} (tasks : List.Forall₂ R e.tasks e'.tasks)
      (same : ∀ old new, R old new → new.heard = old.heard) (journal : e'.journal = e.journal) :
      e'.Hears := h.of_same (readOf_of_forall₂ tasks same) fun _ => notes_nothing journal
  cases change with
  | calm calm =>
      refine h.of_same (fun t => ?_) fun t => calm.alike.notes.mono fun _ remark =>
        Note.ends_of_isRemark remark t
      rw [heardOf, heardOf, readOf, readOf, ← List.getElem?_map, ← List.getElem?_map, calm.heard]
  | register spec status accepted room =>
      exact h.of_same (readOf_register (heard_newRecord e spec status)) fun _ => notes_cons rfl rfl
  | stop idle covers => exact kept e.forall₂_stop (fun _ _ final => final ▸ rfl) rfl
  | drain closing covers =>
      exact kept e.forall₂_drainPending (fun _ _ forgotten => forgotten ▸ rfl) rfl
  | request t => exact h.request t none
  | requestWaiting t covers =>
      have drawn : (e.drawSerial t).Hears :=
        h.of_same (readOf_updateTask e t fun _ => rfl) fun _ => notes_nothing rfl
      exact drawn.request t _
  | detach w leaves =>
      refine kept (e.forall₂_detach w) (fun _ _ which => ?_) rfl
      rcases which with rfl | rfl <;> rfl
  | finish id outcome covers => exact h.finish id outcome
  | abandon id refuses covers =>
      unfold Engine.abandon
      split
      · exact h.of_same (fun _ => rfl) fun _ => notes_nothing rfl
      · exact h

theorem hears_perform {m : Move} (h : e.Hears) (allowed : e.allows m = true) :
    (e.perform m).Hears :=
  (changes_perform allowed (Licence.suits_free e m)).keeps (fun _ _ => Hears.change) h

/-! ## 3. What a move adds to the strokes -/

/-- A run of task `t` ended in this instant, or none did, and nothing else was noted that matters to
its schedule. -/
def Overhears (t : TaskId) (e e' : Engine) : Prop :=
  e'.strokes t = e.strokes t ∨ e'.now = e.now ∧ e'.strokes t = (e.now, .ended) :: e.strokes t

theorem overhears_finish (e : Engine) (id : RunId) (outcome : Outcome) :
    Overhears t e (e.finish id outcome) := by
  have concluded (run : Run) (task : TaskRecord) :
      (e.conclude run task outcome).strokes t =
        if run.id.task = t then (e.now, .ended) :: e.strokes t else e.strokes t := by
    show (List.filterMap _ (⟨e.now, .finished run.id outcome⟩ :: e.journal)) = _
    by_cases own : run.id.task = t <;> simp [Entry.stroke?, Note.stroke?, own, strokes]
  have ended {e' : Engine} (run : Run) (task : TaskRecord) (now : e'.now = e.now)
      (same : e'.strokes t = (e.conclude run task outcome).strokes t) : Overhears t e e' := by
    rw [concluded] at same
    split at same
    · exact .inr ⟨now, same⟩
    · exact .inl same
  have step := e.finish_step id outcome
  generalize e.finish id outcome = after at step ⊢
  cases step with
  | unknown => exact .inl rfl
  | last run task found known settled => exact ended run task rfl rfl
  | closed run task found known owed closing => exact ended run task rfl rfl
  | again run task found known owed admits =>
      exact ended run task (now_beginRun ..) (strokes_of_notes (notes_beginRun _ _ _ _ fun _ => rfl))

/-- What leaves a schedule alone and ends no run adds no stroke. -/
theorem Spares.strokes (spares : Spares t e e') (routine : Routine e e') :
    e'.strokes t = e.strokes t := by
  obtain ⟨entries, journal, routine⟩ := routine
  obtain ⟨answers, beats, quiet⟩ := spares.beats
  have new : entries.filterMap (·.beat? t) = answers := by
    rw [Engine.beats, journal, List.filterMap_append] at beats
    exact List.append_cancel_right beats
  refine strokes_of_notes ⟨entries, journal, fun entry mem => ?_⟩
  refine Note.stroke?_eq_none (routine entry mem) fun beat is => quiet (entry.time, beat) ?_
  rw [← new]
  exact List.mem_filterMap.mpr ⟨entry, mem, by rw [Entry.beat?, is]; rfl⟩

/-- Whatever leaves a schedule alone is heard by it as the end of one run at most. -/
theorem Spares.overhears {m : Move} (spares : Spares t e (e.perform m))
    (allowed : e.allows m = true) : Overhears t e (e.perform m) := by
  cases m with
  | finish id outcome => exact overhears_finish e id outcome
  | announce id event => exact .inl rfl
  | remark note =>
      left
      rw [perform, strokes_note, Note.stroke?_of_isOfCallers allowed]
      rfl
  | _ => exact .inl (spares.strokes (routine_perform rfl))

end Engine

end TaskEngine
