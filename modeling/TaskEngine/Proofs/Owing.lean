/-
  TaskEngine/Proofs/Owing.lean
  ============================
  **Folded requests are owed one later run, and get it.**

  Nothing but the end of a run of the same task launches the run that a task owes, and every such
  end does while the gate is open (`HandsOver`, `finish_of_launched`).  A task that owes a run is full,
  so one without runs in flight owes none, and whatever was folded has had its run in between.
-/
import TaskEngine.Proofs.Beginnings
import TaskEngine.Proofs.Debts

namespace TaskEngine

namespace Engine

variable {e e' : Engine} {t : TaskId} {w : WaiterId}

/-! ## 1. Owed runs begin when a run of the task ends -/

/-- How many owed runs of task `t` have begun. -/
def launched (e : Engine) (t : TaskId) : Nat := e.journal.countP (·.note.launches t)

theorem launched_of_notes (h : Notes (fun n => n.launches t = false) e e') :
    e'.launched t = e.launched t :=
  countP_of_notes h

theorem HandsOver.launched {id : RunId} {outcome : Outcome} {task : TaskRecord}
    (h : HandsOver e id outcome task e') (t : TaskId) :
    e'.launched t = e.launched t + if t = id.task then 1 else 0 := by
  rw [Engine.launched, h.journal]
  by_cases same : t = id.task
  · simp [Note.launches, same, Engine.launched]
  · simp [Note.launches, same, Ne.symm same, Engine.launched]

theorem finish_handsOver {id : RunId} {run : Run} {task : TaskRecord} (found : e.run? id = some run)
    (known : e.tasks[id.task]? = some task) (owed : task.pending = true) (admits : e.isOpen = true)
    (outcome : Outcome) : HandsOver e id outcome task (e.finish id outcome) := by
  obtain rfl : run.id = id := (mem_of_run? found).2
  have again : e.finish run.id outcome =
      (e.conclude run task outcome).beginRun run.id.task true task.parked := by
    simp [finish, found, known, owed, settleOwed, admits]
  rw [again]
  exact handsOver_beginRun known owed outcome

theorem launched_of_other {m : Move} (allowed : e.allows m = true)
    (other : ∀ id outcome, m ≠ .finish id outcome) (t : TaskId) :
    (e.perform m).launched t = e.launched t := by
  apply launched_of_notes
  cases m with
  | announce id event => exact notes_cons rfl rfl
  | remark note =>
      have remark := Note.isRemark_of_isOfCallers allowed
      exact notes_cons rfl (Note.launches_of_isRemark remark t)
  | finish id outcome => exact absurd rfl (other id outcome)
  | _ => exact (routine_perform rfl).mono fun _ routine => Note.launches_of_isRoutine routine t

/-- Only the end of a run of the task launches the run that it owes, and only by an open gate. -/
theorem finish_of_launched {m : Move} (allowed : e.allows m = true)
    (more : (e.perform m).launched t ≠ e.launched t) :
    ∃ id outcome task, m = .finish id outcome ∧ id.task = t ∧ (e.run? id).isSome = true ∧
      e.tasks[t]? = some task ∧ task.pending = true ∧ e.isOpen = true := by
  by_cases ends : ∃ id outcome, m = .finish id outcome
  · obtain ⟨id, outcome, rfl⟩ := ends
    have step := e.finish_step id outcome
    rw [perform] at more
    generalize e.finish id outcome = after at step more
    cases step with
    | unknown => exact absurd rfl more
    | last run task found known settled =>
        exact absurd (launched_of_notes (notes_cons rfl rfl)) more
    | closed run task found known owed closing =>
        exact absurd (launched_of_notes (notes_cons rfl rfl)) more
    | again run task found known owed admits =>
        obtain rfl : run.id = id := (mem_of_run? found).2
        have launched := (handsOver_beginRun known owed outcome).launched t
        by_cases same : t = run.id.task
        · subst same
          exact ⟨run.id, outcome, task, rfl, rfl, by rw [found]; rfl, known, owed, admits⟩
        · rw [if_neg same] at launched
          exact absurd launched more
  · exact absurd (launched_of_other allowed (fun id outcome same => ends ⟨id, outcome, same⟩) t) more

/-! ## 2. All histories -/

theorem isShut_of_isOpen (admits : e.isOpen = true) : e.isShut = false := by
  cases shut : e.isShut with
  | false => rfl
  | true =>
      rw [isOpen, (isShut_iff e).mp shut] at admits
      cases admits

/-- Only callers of known tasks are accepted, and they are known by their number. -/
theorem known_of_accepted {admission : Admission}
    (accepted : (e.requestWaiting t).2 = (w, .ok admission)) :
    e.nextWaiter t = w ∧ ∃ task, e.tasks[t]? = some task := by
  have drawn : e.nextWaiter t = w := congrArg Prod.fst accepted
  have answered : ((e.drawSerial t).request t (some (e.nextWaiter t))).2 = .ok admission :=
    congrArg Prod.snd accepted
  have found : ∃ task, (e.drawSerial t).tasks[t]? = some task := by
    have step := (e.drawSerial t).request_step t (some (e.nextWaiter t))
    generalize (e.drawSerial t).request t (some (e.nextWaiter t)) = answer at step answered
    cases step with
    | refused err => cases answered
    | skipped task known full => cases answered
    | merged task known admits willing full overlap => exact ⟨task, known⟩
    | started task known admits willing room => exact ⟨task, known⟩
  obtain ⟨new, found⟩ := found
  obtain ⟨task, known, -⟩ := forall₂_getElem? (alike_drawSerial e t).tasks found
  exact ⟨drawn, task, known⟩

theorem nodup_parked {gone : WaiterId → Prop} {task : TaskRecord} (kept : Kept gone e)
    (known : e.tasks[t]? = some task) : task.parked.Nodup := by
  refine List.nodup_iff_count.mpr fun w => ?_
  have within := parked_set known { e with tasks := e.tasks.set t task.forget } rfl w
  have none : task.forget.parked.count w = 0 := rfl
  have once := kept.once w
  unfold places at once
  omega

/-- **Folded requests are owed exactly one later run.**  Whatever happens to an engine, and in
whatever order: when a task is found without runs in flight by an open gate, every request that was
folded has been followed by the beginning of an owed run.  A run that is owed begins, in the same
step and for all parked callers, as soon as a run of the task ends by an open gate, and then none is
owed; nothing else launches one, and nothing launches one that is not owed.  Parked are, each once,
the callers who were folded since the last owed run began and who have not left.  Hence no caller,
started or folded, is told how a run ended that had begun before the request. -/
theorem merge_owes_one_later_run (config : Config) (subscribers : List Subscriber)
    (moves : List Move) (admitted : (create config subscribers).admits moves = true) (t : TaskId)
    (task : TaskRecord) (known : ((create config subscribers).after moves).tasks[t]? = some task) :
    let start := create config subscribers
    let e := start.after moves
    (e.isOpen = true → task.running = 0 →
      ∀ newer time caller older,
        e.journal = newer ++ ⟨time, .requested t caller (.ok .merged)⟩ :: older →
        ∃ entry ∈ newer, ∃ id, id.task = t ∧ entry.note = .began id true) ∧
    (e.isOpen = true → e.owes t = true →
      ∀ id outcome, id.task = t → (e.run? id).isSome = true →
        HandsOver e id outcome task (e.perform (.finish id outcome)) ∧
        (e.perform (.finish id outcome)).owes t = false) ∧
    (∀ m, e.allows m = true → (e.perform m).launched t ≠ e.launched t →
      (e.perform m).launched t = e.launched t + 1 ∧ e.isOpen = true ∧ e.owes t = true ∧
      ∃ id outcome, m = .finish id outcome ∧ id.task = t ∧ (e.run? id).isSome = true) ∧
    (e.isShut = false → task.parked.Nodup ∧
      ∀ w, w ∈ task.parked ↔ w.task = t ∧ e.awaits w = true ∧ ¬HasLeft start moves w) ∧
    (∀ before later w admission d, moves = before ++ .requestWaiting t :: later →
      ((start.after before).requestWaiting t).2 = (w, .ok admission) → (w, d) ∈ e.mail →
      ToldLater (start.after before) (.requestWaiting t :: later) w d) := by
  intro start e
  have sound : e.Sound := keeps_after (fun _ _ _ => Sound.change) admitted
    (sound_create config subscribers)
  have housed : e.Housed := keeps_after (fun _ _ _ => Housed.change) admitted
    (housed_create config subscribers)
  have kept : Kept (fun _ => True) e := (kept_create _ config subscribers).after
    (housed_create config subscribers) admitted fun _ _ _ _ _ => trivial
  have record := sound.known t task known
  have owes (admits : e.isOpen = true) : task.pending = e.owes t :=
    owes_after admitted (isShut_of_isOpen admits) known
  refine ⟨?_, ?_, ?_, ?_, ?_⟩
  · intro admits none newer time caller older journal
    by_contra unpaid
    have folded : e.owes t = true := by
      refine since_iff.mpr ⟨newer, _, older, journal, beq_self_eq_true t, fun entry mem => ?_⟩
      refine Bool.eq_false_iff.mpr fun launches => unpaid ?_
      obtain ⟨id, same, begins⟩ := Note.launches_iff.mp launches
      exact ⟨entry, mem, id, same, begins⟩
    -- a task that owes a run is full
    have full := (record.owed ((owes admits).trans folded)).2
    exact Nat.ne_of_gt record.room (full.symm.trans none)
  · rintro admits owed id outcome rfl present
    obtain ⟨run, found⟩ := Option.isSome_iff_exists.mp present
    have begins : HandsOver e id outcome task (e.perform (.finish id outcome)) :=
      finish_handsOver found known ((owes admits).trans owed) admits outcome
    exact ⟨begins, begins.tells _⟩
  · intro m allowed more
    obtain ⟨id, outcome, task', rfl, rfl, present, known', owed, admits⟩ :=
      finish_of_launched allowed more
    obtain rfl : task = task' := Option.some.inj (known.symm.trans known')
    obtain ⟨run, found⟩ := Option.isSome_iff_exists.mp present
    have launched := (finish_handsOver found known owed admits outcome).launched id.task
    rw [if_pos rfl] at launched
    exact ⟨launched, admits, (owes admits).symm.trans owed, id, outcome, rfl, rfl, present⟩
  · intro unshut
    refine ⟨nodup_parked kept known, fun w => ?_⟩
    constructor
    · intro parked
      obtain rfl := housed.parked t task known w parked
      exact ⟨rfl, (mem_parked_iff admitted unshut known).mp parked⟩
    · rintro ⟨rfl, awaited⟩
      exact (mem_parked_iff admitted unshut known).mpr awaited
  · intro before later w admission d split accepted told
    obtain ⟨rfl, asked, found⟩ := known_of_accepted accepted
    have parts := admitted
    rw [split, admits_append] at parts
    obtain ⟨first, second⟩ := parts
    have kept' : Kept (fun _ => True) (start.after before) :=
      (kept_create _ config subscribers).after (housed_create config subscribers) first
        fun _ _ _ _ _ => trivial
    have last : e = (start.after before).after (.requestWaiting t :: later) := by
      rw [← after_append, ← split]
    rw [last] at told
    exact toldLater_of_mem second
      (keeps_after (fun _ _ _ => Housed.change) first (housed_create config subscribers))
      (keeps_after (fun _ _ _ => Numbered.change) first (numbered_create config subscribers))
      (kept'.places_nextWaiter found) told

/-- Two callers, of which the second is folded, and the ends of the two runs that serve them. -/
def relayedHistory : List Move :=
  foldedHistory ++ [.finish ⟨0, 1⟩ .succeeded, .finish ⟨0, 2⟩ .succeeded]

theorem merge_owes_one_later_run_relayed :
    (create {} []).admits relayedHistory = true ∧
    (∃ entry ∈ ((create {} []).after relayedHistory).journal, ∃ id, id.task = 0 ∧
      entry.note = .began id true) ∧
    ToldLater ((create {} []).after (foldedHistory.take 3))
      [.requestWaiting 0, .finish ⟨0, 1⟩ .succeeded, .finish ⟨0, 2⟩ .succeeded] ⟨0, 1⟩
      (.answered (.ok ())) := by
  have admitted : (create {} []).admits relayedHistory = true := by decide
  obtain ⟨task, known, none⟩ : ∃ task,
      ((create {} []).after relayedHistory).tasks[0]? = some task ∧ task.running = 0 :=
    ⟨_, rfl, rfl⟩
  obtain ⟨followed, -, -, -, told⟩ :=
    merge_owes_one_later_run {} [] relayedHistory admitted 0 task known
  obtain ⟨newer, older, journal⟩ : ∃ newer older, ((create {} []).after relayedHistory).journal =
      newer ++ ⟨.zero, .requested 0 (some ⟨0, 1⟩) (.ok .merged)⟩ :: older :=
    ⟨[_, _, _], _, rfl⟩
  obtain ⟨entry, mem, begins⟩ := followed rfl none newer .zero (some ⟨0, 1⟩) older journal
  refine ⟨admitted, ⟨entry, journal ▸ List.mem_append_left _ mem, begins⟩, ?_⟩
  exact told _ _ ⟨0, 1⟩ .merged _ rfl rfl (.head _)

end Engine

end TaskEngine
