/-
  TaskEngine/Proofs/Debts.lean
  ============================
  **What a task owes for folded requests.**

  A task that folds a request owes two things from then on: a run, and a place in it for the caller
  if it waits.  Both are debts (`Debt`) that the record of the task shows and that the journal tells
  as well: they are incurred with the note of the request and paid when an owed run begins.  What a
  change does to a debt is a short list (`Affects`), from which it follows that record and journal
  agree until the gate is shut (`Booked`), and that callers who have left are not parked again.

  `owes_after` and `mem_parked_iff` say so for all histories.
-/
import TaskEngine.Proofs.Closing
import TaskEngine.Proofs.Notes
import TaskEngine.Proofs.Waiters

namespace TaskEngine

namespace Note

/-- Whether a request for task `t` was folded. -/
def folds (t : TaskId) : Note → Bool
  | .requested s _ (.ok .merged) => s == t
  | _ => false

/-- Whether the request of a waiting caller was folded. -/
def parks (w : WaiterId) : Note → Bool
  | .requested t waiter (.ok .merged) => t == w.task && waiter == some w
  | _ => false

/-- Whether an owed run of task `t` began. -/
def launches (t : TaskId) : Note → Bool
  | .began id merged => merged && id.task == t
  | _ => false

variable {n : Note}

theorem folds_of_parks {w : WaiterId} (h : n.parks w = true) : n.folds w.task = true := by
  unfold parks at h
  split at h
  · simpa [folds] using (Bool.and_eq_true_iff.mp h).1
  · cases h

theorem accepted?_of_parks {w : WaiterId} (h : n.parks w = true) : n.accepted? = some w := by
  unfold parks at h
  split at h
  · exact beq_iff_eq.mp (Bool.and_eq_true_iff.mp h).2
  · cases h

theorem folds_of_isRemark (h : n.isRemark = true) (t : TaskId) : n.folds t = false := by
  cases n <;> first | rfl | cases h

theorem launches_iff {t : TaskId} :
    n.launches t = true ↔ ∃ id, id.task = t ∧ n = .began id true := by
  cases n <;> simp [launches, and_comm]

theorem launches_of_isRemark (h : n.isRemark = true) (t : TaskId) : n.launches t = false := by
  cases n <;> first | rfl | cases h

theorem launches_of_isRoutine (h : n.isRoutine = true) (t : TaskId) : n.launches t = false := by
  cases n with
  | began id merged => simp_all [isRoutine, launches]
  | _ => rfl

end Note

/-! ## 1. What was noted since -/

/-- Whether a note of the first kind was left since the last one of the second kind. -/
def since (p q : Note → Bool) : List Entry → Bool
  | [] => false
  | entry :: older => p entry.note || (!q entry.note && since p q older)

theorem since_iff {p q : Note → Bool} {journal : List Entry} :
    since p q journal = true ↔ ∃ newer entry older, journal = newer ++ entry :: older ∧
      p entry.note = true ∧ ∀ other ∈ newer, q other.note = false := by
  induction journal with
  | nil => simp [since]
  | cons first journal ih =>
      rw [since, Bool.or_eq_true, Bool.and_eq_true, Bool.not_eq_true', ih]
      constructor
      · rintro (here | ⟨none, newer, entry, older, rfl, there, others⟩)
        · exact ⟨[], first, journal, rfl, here, fun _ mem => absurd mem List.not_mem_nil⟩
        · exact ⟨first :: newer, entry, older, rfl, there, List.forall_mem_cons.mpr ⟨none, others⟩⟩
      · rintro ⟨newer, entry, older, split, here, others⟩
        cases newer with
        | nil =>
            obtain ⟨rfl, -⟩ := List.cons.inj split
            exact .inl here
        | cons second newer =>
            obtain ⟨rfl, rest⟩ := List.cons.inj split
            obtain ⟨none, others⟩ := List.forall_mem_cons.mp others
            exact .inr ⟨none, newer, entry, older, rest, here, others⟩

theorem since_append_of_absent {p q : Note → Bool} {entries : List Entry}
    (absent : ∀ entry ∈ entries, p entry.note = false ∧ q entry.note = false)
    (older : List Entry) : since p q (entries ++ older) = since p q older := by
  induction entries with
  | nil => rfl
  | cons entry entries ih =>
      obtain ⟨⟨notP, notQ⟩, absent⟩ := List.forall_mem_cons.mp absent
      rw [List.cons_append, since, notP, notQ, ih absent]
      rfl

/-! ## 2. Debts -/

/-- What task `t` owes from a folded request on until an owed run begins. -/
structure Debt (t : TaskId) where
  /-- Whether a record shows it, by what is pending and who is parked. -/
  shown : Bool → List WaiterId → Bool
  /-- Whether a note tells that it was incurred. -/
  incurred : Note → Bool
  folds : ∀ n, incurred n = true → n.folds t = true
  clear : shown false [] = false
  fold : ∀ pending parked waiter, shown true (parked ++ Option.toList waiter) =
    (incurred (.requested t waiter (.ok .merged)) || shown pending parked)

namespace Debt

/-- A run is owed. -/
def run (t : TaskId) : Debt t where
  shown pending _ := pending
  incurred n := n.folds t
  folds _ h := h
  clear := rfl
  fold _ _ _ := by simp [Note.folds]

/-- A place in the owed run is owed to a waiting caller. -/
def caller (w : WaiterId) : Debt w.task where
  shown _ parked := parked.contains w
  incurred n := n.parks w
  folds _ h := Note.folds_of_parks h
  clear := rfl
  fold _ parked waiter := by
    cases waiter with
    | none => simp [Note.parks]
    | some v => simp [Note.parks, Bool.or_comm, eq_comm, beq_eq_decide]

/-- Whether the debt is the same when `v` leaves. -/
def Spares {t : TaskId} (d : Debt t) (v : WaiterId) : Prop :=
  ∀ pending parked, d.shown pending (parked.filter (· != v)) = d.shown pending parked

theorem run_spares (t : TaskId) (v : WaiterId) : (run t).Spares v := fun _ _ => rfl

theorem caller_spares {v w : WaiterId} (other : v ≠ w) : (caller w).Spares v := by
  intro pending parked
  simp [caller, List.contains_eq_mem, Ne.symm other]

end Debt

namespace Engine

variable {e e' : Engine} {t : TaskId} {w : WaiterId} {d : Debt t}

def shows (e : Engine) (d : Debt t) : Bool :=
  (e.tasks[t]?).any fun task => d.shown task.pending task.parked

/-- Whether the debt was incurred since the last owed run of the task began. -/
def tells (e : Engine) (d : Debt t) : Bool := since d.incurred (·.launches t) e.journal

/-- Whether a request for task `t` was folded since its last owed run began. -/
def owes (e : Engine) (t : TaskId) : Bool := e.tells (.run t)

/-- Whether the request of `w` was folded since the last owed run of its task began. -/
def awaits (e : Engine) (w : WaiterId) : Bool := e.tells (.caller w)

theorem shows_of_known {task : TaskRecord} (known : e.tasks[t]? = some task) (d : Debt t) :
    e.shows d = d.shown task.pending task.parked := by
  rw [shows, known]
  rfl

theorem shows_congr (d : Debt t)
    (tasks : e'.tasks.map (fun task => d.shown task.pending task.parked) =
      e.tasks.map fun task => d.shown task.pending task.parked) : e'.shows d = e.shows d := by
  have at_t (e : Engine) : e.shows d =
      ((e.tasks.map fun task => d.shown task.pending task.parked)[t]?).any id := by
    rw [List.getElem?_map, Option.any_map]
    rfl
  rw [at_t, tasks, ← at_t]

theorem shows_set {s : TaskId} {task new : TaskRecord} (known : e.tasks[s]? = some task)
    (e' : Engine) (tasks : e'.tasks = e.tasks.set s new) (d : Debt t) :
    e'.shows d = if t = s then d.shown new.pending new.parked else e.shows d := by
  rw [shows, tasks]
  by_cases same : t = s
  · subst same
    rw [if_pos rfl, List.getElem?_set_self (List.getElem?_eq_some_iff.mp known).1]
    rfl
  · rw [if_neg same, List.getElem?_set_ne (Ne.symm same)]
    rfl

theorem shows_set_of_same {s : TaskId} {task new : TaskRecord} (known : e.tasks[s]? = some task)
    (tasks : e'.tasks = e.tasks.set s new) (pending : new.pending = task.pending)
    (parked : new.parked = task.parked) (d : Debt t) : e'.shows d = e.shows d := by
  refine shows_congr d ?_
  rw [tasks]
  exact map_set_eq_map known (by rw [pending, parked])

theorem shows_of_cleared (d : Debt t)
    (cleared : ∀ task ∈ e.tasks, task.pending = false ∧ task.parked = []) : e.shows d = false := by
  unfold shows
  cases known : e.tasks[t]? with
  | none => rfl
  | some task =>
      obtain ⟨settled, nobody⟩ := cleared task (List.mem_of_getElem? known)
      rw [Option.any_some, settled, nobody]
      exact d.clear

theorem tells_note (e : Engine) (n : Note) (d : Debt t) :
    (e.note n).tells d = (d.incurred n || (!n.launches t && e.tells d)) := rfl

theorem incurred_of_not_folds {n : Note} (other : n.folds t = false) (d : Debt t) :
    d.incurred n = false := by
  cases incurred : d.incurred n with
  | false => rfl
  | true =>
      rw [d.folds n incurred] at other
      cases other

/-- Whether the note has nothing to do with what task `t` owes. -/
def Foreign (t : TaskId) (n : Note) : Prop := n.folds t = false ∧ n.launches t = false

theorem tells_eq_of_notes (d : Debt t) (h : Notes (Foreign t) e e') : e'.tells d = e.tells d := by
  obtain ⟨entries, journal, foreign⟩ := h
  rw [tells, journal]
  refine since_append_of_absent (fun entry mem => ?_) _
  obtain ⟨folds, launches⟩ := foreign entry mem
  exact ⟨incurred_of_not_folds folds d, launches⟩

/-! ## 3. What a change does to a debt -/

inductive Affects (d : Debt t) (e e' : Engine) : Prop where
  | keeps (shown : e'.shows d = e.shows d) (told : e'.tells d = e.tells d)
  /-- A request is folded, of a new caller if it comes from a waiting one. -/
  | incurs (waiter : Option WaiterId) (new : ∀ w ∈ waiter, w = e.nextWaiter t)
      (incurred : d.incurred (.requested t waiter (.ok .merged)) = true)
      (shown : e'.shows d = true) (told : e'.tells d = true)
  | pays (shown : e'.shows d = false) (told : e'.tells d = false)
  /-- Behind a shut gate nothing is paid any more. -/
  | lapses (shut : e'.isShut = true) (shown : e'.shows d = false)

theorem Alike.affects (h : Alike e e') (d : Debt t) : Affects d e e' := by
  refine .keeps (shows_congr d ?_) (tells_eq_of_notes d (h.notes.mono fun _ remark => ?_))
  · exact map_eq_of_forall₂ h.tasks fun _ _ alike => by rw [alike.pending, alike.parked]
  · exact ⟨Note.folds_of_isRemark remark t, Note.launches_of_isRemark remark t⟩

theorem affects_of_eq (tasks : e'.tasks = e.tasks) (journal : e'.journal = e.journal) (d : Debt t) :
    Affects d e e' :=
  .keeps (by rw [shows, tasks]; rfl) (by rw [tells, journal]; rfl)

theorem shows_register (e : Engine) (spec : ResolvedSpec) (status : TaskStatus) (d : Debt t) :
    (e.register spec status).shows d = e.shows d := by
  rcases getElem?_register e spec status t with same | ⟨unknown, new⟩
  · rw [shows, same]
    rfl
  · have blank := alike_newRecord e spec status
    rw [shows_of_known new, blank.pending, blank.parked, d.clear, shows, unknown]
    rfl

theorem affects_request {asked : Engine} {s : TaskId} {waiter : Option WaiterId}
    (shown : asked.shows d = e.shows d) (told : asked.tells d = e.tells d)
    (new : ∀ w ∈ waiter, w = e.nextWaiter s) : Affects d e (asked.request s waiter).1 := by
  have step := asked.request_step s waiter
  generalize asked.request s waiter = answer at step ⊢
  cases step with
  | refused err =>
      exact .keeps shown ((tells_eq_of_notes d (notes_cons rfl ⟨rfl, rfl⟩)).trans told)
  | skipped task known full =>
      have published : Notes (Foreign t) asked
          (asked.publishAbout s { kind := .runSkipped, task := some task.name }) :=
        notes_cons rfl ⟨rfl, rfl⟩
      exact .keeps shown
        ((tells_eq_of_notes d (published.trans (notes_cons rfl ⟨rfl, rfl⟩))).trans told)
  | merged task known admits willing full overlap =>
      have folded := shows_set known (asked.updateTask s (·.fold waiter))
        (modify_eq_set_of_getElem? known _) d
      have published : Notes (Foreign t) asked
          ((asked.updateTask s (·.fold waiter)).publishAbout s
            { kind := .runMerged, task := some task.name }) := notes_cons rfl ⟨rfl, rfl⟩
      have told := (tells_eq_of_notes d published).trans told
      by_cases same : t = s
      · subst same
        rw [if_pos rfl] at folded
        have folded := folded.trans (d.fold task.pending task.parked waiter)
        cases incurred : d.incurred (.requested t waiter (.ok .merged)) with
        | true =>
            rw [incurred] at folded
            exact .incurs waiter new incurred folded (by rw [tells_note, incurred]; rfl)
        | false =>
            rw [incurred, Bool.false_or, ← shows_of_known known] at folded
            exact .keeps (folded.trans shown) (by rw [tells_note, incurred]; exact told)
      · rw [if_neg same] at folded
        refine .keeps (folded.trans shown) ?_
        have foreign : Foreign t (.requested s waiter (.ok .merged)) :=
          ⟨beq_eq_false_iff_ne.mpr (Ne.symm same), rfl⟩
        exact (tells_eq_of_notes d (notes_cons rfl foreign)).trans told
  | started task known admits willing room =>
      have started : Notes (Foreign t) asked (asked.beginRun s false waiter.toList) :=
        notes_beginRun _ _ _ _ fun _ => ⟨rfl, rfl⟩
      refine .keeps ?_ ((tells_eq_of_notes d (started.trans (notes_cons rfl ⟨rfl, rfl⟩))).trans told)
      have tasks : (asked.beginRun s false waiter.toList).tasks =
          asked.tasks.set s (task.begin asked.now) := by rw [beginRun_eq known]
      exact (shows_set_of_same known tasks rfl rfl d).trans shown

/-! ### The end of a run -/

/-- In one step a run ends and the owed run of its task begins, for everybody who is parked; then
no run is owed and nobody is parked. -/
structure HandsOver (e : Engine) (id : RunId) (outcome : Outcome) (task : TaskRecord) (e' : Engine) :
    Prop where
  journal : e'.journal = ⟨e.now, .began ⟨id.task, task.runCount + 1⟩ true⟩ ::
    ⟨e.now, .finished id outcome⟩ :: e.journal
  runs : ∃ token, e'.runs = e.runs.filter (·.id != id) ++
    [{ id := ⟨id.task, task.runCount + 1⟩, merged := true, waiters := task.parked, token }]
  record : ∃ new, e'.tasks = e.tasks.set id.task new ∧ new.pending = false ∧ new.parked = []

theorem handsOver_beginRun {run : Run} {task : TaskRecord}
    (known : e.tasks[run.id.task]? = some task) (owed : task.pending = true) (outcome : Outcome) :
    HandsOver e run.id outcome task
      ((e.conclude run task outcome).beginRun run.id.task true task.parked) := by
  rw [beginRun_eq (known_conclude known outcome), TaskRecord.conclude_runCount]
  refine ⟨rfl, ⟨_, rfl⟩, (task.conclude e.phase e.now outcome).begin e.now, ?_, rfl, ?_⟩
  · exact List.set_set ..
  · show (task.conclude e.phase e.now outcome).parked = []
    rw [TaskRecord.conclude_parked, if_pos owed]

theorem HandsOver.tells {id : RunId} {outcome : Outcome} {task : TaskRecord}
    (h : HandsOver e id outcome task e') (d : Debt id.task) : e'.tells d = false := by
  have incurred : d.incurred (.began ⟨id.task, task.runCount + 1⟩ true) = false :=
    incurred_of_not_folds rfl d
  rw [Engine.tells, h.journal, since, incurred]
  simp [Note.launches]

theorem HandsOver.affects {id : RunId} {outcome : Outcome} {task : TaskRecord}
    (h : HandsOver e id outcome task e') (known : e.tasks[id.task]? = some task) (d : Debt t) :
    Affects d e e' := by
  obtain ⟨new, tasks, settled, nobody⟩ := h.record
  have shown := shows_set known e' tasks d
  by_cases same : t = id.task
  · subst same
    rw [if_pos rfl, settled, nobody, d.clear] at shown
    exact .pays shown (h.tells d)
  · rw [if_neg same] at shown
    have foreign : Foreign t (.began ⟨id.task, task.runCount + 1⟩ true) :=
      ⟨rfl, beq_eq_false_iff_ne.mpr (Ne.symm same)⟩
    have finished : Notes (Foreign t) e (e.note (.finished id outcome)) :=
      notes_cons rfl ⟨rfl, rfl⟩
    exact .keeps shown (tells_eq_of_notes d (finished.trans (notes_cons h.journal foreign)))

/-- A gate that is not open while a run is in flight is shut. -/
theorem isShut_of_run? {id : RunId} {run : Run} (quiet : e.Quiet) (found : e.run? id = some run)
    (closing : e.isOpen = false) : e.isShut = true := by
  refine isShut_of_begun (fun fresh => ?_) closing
  have mem := (mem_of_run? found).1
  rw [(quiet (.inl fresh)).1] at mem
  cases mem

theorem affects_finish (quiet : e.Quiet) (d : Debt t) (id : RunId) (outcome : Outcome) :
    Affects d e (e.finish id outcome) := by
  have finished : Foreign t (.finished id outcome) := ⟨rfl, rfl⟩
  have step := e.finish_step id outcome
  generalize e.finish id outcome = after at step ⊢
  cases step with
  | unknown => exact affects_of_eq rfl rfl d
  | last run task found known settled =>
      obtain rfl : run.id = id := (mem_of_run? found).2
      refine .keeps ?_ (tells_eq_of_notes d (notes_cons rfl finished))
      refine shows_set_of_same known rfl settled.symm ?_ d
      rw [TaskRecord.conclude_parked, settled]
      rfl
  | closed run task found known owed closing =>
      obtain rfl : run.id = id := (mem_of_run? found).2
      have shown := shows_set known
        ((e.conclude run task outcome).deliver task.parked (.answered (.error .closed))) rfl d
      have shut := isShut_of_run? quiet found closing
      by_cases same : t = run.id.task
      · refine .lapses shut ?_
        rw [shown, if_pos same, TaskRecord.conclude_pending, TaskRecord.conclude_parked, if_pos owed]
        exact d.clear
      · rw [if_neg same] at shown
        exact .keeps shown (tells_eq_of_notes d (notes_cons rfl finished))
  | again run task found known owed admits =>
      obtain rfl : run.id = id := (mem_of_run? found).2
      exact (handsOver_beginRun known owed outcome).affects known d

/-! ### All changes -/

theorem shows_detach (e : Engine) {v : WaiterId} (spares : d.Spares v) :
    (e.detach v).shows d = e.shows d := by
  have same := forall₂_modify (R := fun old new : TaskRecord =>
      d.shown new.pending new.parked = d.shown old.pending old.parked) (f := (·.detach v))
    (fun _ => rfl) (fun old => spares old.pending old.parked) e.tasks v.task
  exact shows_congr d (map_eq_of_forall₂ same fun _ _ same => same)

/-- Whoever leaves is not parked any more. -/
theorem shows_detach_caller (e : Engine) (w : WaiterId) :
    (e.detach w).shows (.caller w) = false := by
  show ((e.tasks.modify w.task (·.detach w))[w.task]?).any _ = false
  rw [List.getElem?_modify_eq, Option.map_eq_map, Option.any_map, Option.any_eq_false]
  intro task known
  simp [Debt.caller, TaskRecord.detach]

theorem Change.affects {l : Licence} (change : Change l e e') (quiet : e.Quiet) (d : Debt t)
    (spares : ∀ v, l.leaves v → d.Spares v) : Affects d e e' := by
  cases change with
  | calm calm => exact calm.alike.affects d
  | register spec status accepted room =>
      exact .keeps (shows_register e spec status d)
        (tells_eq_of_notes d (notes_cons rfl ⟨rfl, rfl⟩))
  | stop idle covers =>
      refine .lapses rfl (shows_of_cleared d fun task mem => ?_)
      obtain ⟨old, -, rfl⟩ := List.mem_map.mp mem
      exact ⟨rfl, rfl⟩
  | drain closing covers =>
      refine .lapses (isShut_of_isClosing closing) (shows_of_cleared d fun task mem => ?_)
      obtain ⟨old, -, rfl⟩ := List.mem_map.mp mem
      exact ⟨rfl, rfl⟩
  | request s => exact affects_request rfl rfl nofun
  | requestWaiting s covers =>
      have drawn : (e.drawSerial s).shows d = e.shows d :=
        shows_congr d (map_eq_of_forall₂ (alike_drawSerial e s).tasks
          fun _ _ alike => by rw [alike.pending, alike.parked])
      exact affects_request drawn rfl fun w mem => (Option.mem_some.mp mem).symm
  | detach v leaves => exact .keeps (shows_detach e (spares v leaves)) rfl
  | finish id outcome covers => exact affects_finish quiet d id outcome
  | abandon id refuses covers =>
      unfold Engine.abandon
      split <;> refine affects_of_eq ?_ ?_ d <;> rfl

/-! ## 4. Records and journal agree -/

/-- Until the gate is shut, the record shows what the journal tells. -/
def Booked (d : Debt t) (e : Engine) : Prop := e.isShut = false → e.shows d = e.tells d

theorem booked_create (d : Debt t) (config : Config) (subscribers : List Subscriber) :
    Booked d (create config subscribers) :=
  fun _ => rfl

theorem Booked.change {l : Licence} (change : Change l e e') (quiet : e.Quiet)
    (spares : ∀ v, l.leaves v → d.Spares v) (h : Booked d e) : Booked d e' := by
  intro unshut
  have before : e.isShut = false := by
    cases shut : e.isShut with
    | false => rfl
    | true =>
        rw [(change.sealed shut).shut] at unshut
        cases unshut
  cases change.affects quiet d spares with
  | keeps shown told => rw [shown, told, h before]
  | incurs waiter new incurred shown told => rw [shown, told]
  | pays shown told => rw [shown, told]
  | lapses shut shown =>
      rw [shut] at unshut
      cases unshut

/-- Whether a run is owed is in the books of every history. -/
theorem owes_after {config : Config} {subscribers : List Subscriber} {moves : List Move}
    (admitted : (create config subscribers).admits moves = true)
    (unshut : ((create config subscribers).after moves).isShut = false) {task : TaskRecord}
    (known : ((create config subscribers).after moves).tasks[t]? = some task) :
    task.pending = ((create config subscribers).after moves).owes t := by
  have both := keeps_after (P := fun e => e.Quiet ∧ Booked (.run t) e)
    (fun _ _ _ change both => ⟨both.1.change change,
      both.2.change change both.1 fun v _ => Debt.run_spares t v⟩)
    admitted ⟨quiet_create config subscribers, booked_create _ config subscribers⟩
  exact (shows_of_known known (.run t)).symm.trans (both.2 unshut)

/-! ### Callers who stay -/

theorem mem_accepted_of_awaits (awaits : e.awaits w = true) : w ∈ e.accepted := by
  obtain ⟨newer, entry, older, journal, parks, -⟩ := since_iff.mp awaits
  rw [accepted, journal]
  exact List.mem_filterMap.mpr ⟨entry, List.mem_append_right _ List.mem_cons_self,
    Note.accepted?_of_parks parks⟩

/-- Whoever has not left is parked as long as the place in the owed run is owed. -/
theorem booked_caller_after {config : Config} {subscribers : List Subscriber} {moves : List Move}
    (admitted : (create config subscribers).admits moves = true)
    (stays : ¬HasLeft (create config subscribers) moves w) :
    Booked (.caller w) ((create config subscribers).after moves) := by
  have both := keeps_after_leaving (HasLeft (create config subscribers) moves)
    (P := fun e => e.Quiet ∧ Booked (.caller w) e) ?_ ?_ admitted
    (fun before _ rest split mem => ⟨before, rest, split, mem⟩)
    ⟨quiet_create config subscribers, booked_create _ config subscribers⟩
  · exact both.2
  · intro e e' change both
    exact ⟨both.1.change change, both.2.change change both.1 fun _ => False.elim⟩
  · intro e v left both
    refine ⟨both.1.detach v, fun unshut => ?_⟩
    by_cases same : v = w
    · -- it leaves before its request, when no place is owed to it
      subst same
      have untold : e.awaits v = false :=
        Bool.eq_false_iff.mpr fun awaits => stays (left (mem_accepted_of_awaits awaits))
      exact (shows_detach_caller e v).trans untold.symm
    · exact (shows_detach e (Debt.caller_spares same)).trans (both.2 unshut)

theorem Kept.nextWaiter_not_mem_accepted {gone : WaiterId → Prop} (kept : Kept gone e)
    (t : TaskId) : e.nextWaiter t ∉ e.accepted := by
  intro mem
  obtain ⟨task, known, below⟩ := kept.serials _ (.inl mem)
  have known : e.tasks[t]? = some task := known
  rw [nextWaiter, known] at below
  exact Nat.lt_irrefl _ below

/-- Whoever was accepted and is not parked will not be parked. -/
theorem not_shows_after {moves : List Move} (admitted : e.admits moves = true) (housed : e.Housed)
    (quiet : e.Quiet) (kept : Kept (fun _ => True) e) (accepted : w ∈ e.accepted)
    (away : e.shows (.caller w) = false) : (e.after moves).shows (.caller w) = false := by
  refine (keeps_after_leaving (fun _ => True) (P := fun e => e.Housed ∧ e.Quiet ∧
    Kept (fun _ => True) e ∧ w ∈ e.accepted ∧ e.shows (.caller w) = false) ?_ ?_ admitted
    (fun _ _ _ _ _ => trivial) ⟨housed, quiet, kept, accepted, away⟩).2.2.2.2
  · rintro e e' change ⟨housed, quiet, kept, accepted, away⟩
    obtain ⟨entries, journal, -⟩ := change.notes
    have grown : w ∈ e'.accepted := by
      rw [Engine.accepted, journal, List.filterMap_append]
      exact List.mem_append_right _ accepted
    refine ⟨housed.change change, quiet.change change,
      kept.change change housed fun _ => False.elim, grown, ?_⟩
    cases change.affects quiet (.caller w) fun _ => False.elim with
    | keeps shown told => rw [shown, away]
    | incurs waiter new incurred shown told =>
        -- only a caller without a number so far is parked anew
        have parks : (Note.requested w.task waiter (.ok .merged)).parks w = true := incurred
        have asked : waiter = some w := Note.accepted?_of_parks parks
        have drawn : w = e.nextWaiter w.task := new w asked
        rw [drawn] at accepted
        exact absurd accepted (kept.nextWaiter_not_mem_accepted _)
    | pays shown told => exact shown
    | lapses shut shown => exact shown
  · rintro e v - ⟨housed, quiet, kept, accepted, away⟩
    refine ⟨housed.detach v, quiet.detach v, kept.detach v fun _ => trivial, accepted, ?_⟩
    by_cases same : v = w
    · exact same ▸ shows_detach_caller e v
    · exact (shows_detach e (Debt.caller_spares same)).trans away

/-- Parked are those whose requests were folded since the last owed run began, and who have not
left. -/
theorem mem_parked_iff {config : Config} {subscribers : List Subscriber} {moves : List Move}
    (admitted : (create config subscribers).admits moves = true)
    (unshut : ((create config subscribers).after moves).isShut = false) {task : TaskRecord}
    (known : ((create config subscribers).after moves).tasks[w.task]? = some task) :
    w ∈ task.parked ↔ ((create config subscribers).after moves).awaits w = true ∧
      ¬HasLeft (create config subscribers) moves w := by
  have shown : ((create config subscribers).after moves).shows (.caller w) = true ↔
      w ∈ task.parked := by
    rw [shows_of_known known]
    exact List.contains_iff_mem
  rw [← shown]
  constructor
  · intro parked
    have stays : ¬HasLeft (create config subscribers) moves w := by
      rintro ⟨before, rest, rfl, accepted⟩
      have parts := admitted
      rw [admits_append, admits_cons] at parts
      obtain ⟨first, -, last⟩ := parts
      have housed := keeps_after (fun _ _ _ => Housed.change) first
        (housed_create config subscribers)
      have quiet := keeps_after (fun _ _ _ => Quiet.change) first (quiet_create config subscribers)
      have kept := (kept_create (fun _ => True) config subscribers).after
        (housed_create config subscribers) first fun _ _ _ _ _ => trivial
      have away := not_shows_after last (housed.detach w) (quiet.detach w)
        (kept.detach w fun _ => trivial) accepted (shows_detach_caller _ w)
      rw [after_append, after_cons] at parked
      exact Bool.false_ne_true (away.symm.trans parked)
    exact ⟨(booked_caller_after admitted stays unshut).symm.trans parked, stays⟩
  · rintro ⟨awaits, stays⟩
    exact (booked_caller_after admitted stays unshut).trans awaits

end Engine

end TaskEngine
