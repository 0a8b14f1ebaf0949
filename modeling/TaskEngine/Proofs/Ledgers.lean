/-
  TaskEngine/Proofs/Ledgers.lean
  ==============================
  **The ledger of a task: accepted requests, and the runs that began.**

  Numbers are drawn in two places, when a request finds room and when a run ends that another is owed
  after.  Read as a ledger (`Ledger`), the journal has lines of three kinds for a task: a run begins
  under the next number and the request that asked for it is answered at once, a request is folded,
  and an owed run begins under the next number after some request was folded.  So runs are numbered
  without gaps (`Ledger.begun_iff`), every one of them is there for a request that was answered or is
  an owed one (`Ledger.countP`), and owed runs come after requests that were folded for them
  (`Ledger.folded`).

  The runs of a task that are in flight stand in the order of their numbers (`Ranked`), which is the
  order in which they were launched.
-/
import TaskEngine.Proofs.Beginnings
import TaskEngine.Proofs.Debts
import TaskEngine.Proofs.Tallies

namespace TaskEngine

/-! ## 1. Ledgers -/

namespace Note

/-- Whether a request for task `t` was answered by a run of its own. -/
def starts (t : TaskId) : Note → Bool
  | .requested s _ (.ok .started) => s == t
  | _ => false

/-- Whether the note is a line in the ledger of task `t`. -/
def isLine (t : TaskId) (n : Note) : Bool := n.begins t || n.starts t || n.folds t

section Lines

variable (t s : TaskId) (id : RunId) (merged : Bool) (waiter : Option WaiterId)

@[simp] theorem launches_began : (began id merged).launches t = (merged && id.task == t) := rfl

@[simp] theorem launches_requested (result : AdmissionResult) :
    (requested s waiter result).launches t = false := rfl

@[simp] theorem starts_began : (began id merged).starts t = false := rfl

@[simp] theorem starts_started : (requested s waiter (.ok .started)).starts t = (s == t) := rfl

@[simp] theorem starts_merged : (requested s waiter (.ok .merged)).starts t = false := rfl

@[simp] theorem isLine_began : (began id merged).isLine t = (id.task == t) := by
  simp [isLine, begins, starts, folds]

@[simp] theorem isLine_accepted (admission : Admission) :
    (requested s waiter (.ok admission)).isLine t = (s == t) := by
  cases admission <;> simp [isLine, begins, starts, folds]

end Lines

variable {n : Note} {t : TaskId}

theorem isLine_of_isRemark (h : n.isRemark = true) (t : TaskId) : n.isLine t = false := by
  cases n <;> first | rfl | cases h

theorem begins_of_launches (h : n.launches t = true) : n.begins t = true := by
  obtain ⟨id, rfl, rfl⟩ := launches_iff.mp h
  exact beq_self_eq_true _

end Note

/-- The journal, the newest entry first, is a ledger of task `t` after `runs` runs of it have begun. -/
inductive Ledger (t : TaskId) : (runs : Nat) → List Entry → Prop where
  | blank : Ledger t 0 []
  | aside {runs : Nat} {journal : List Entry} {entry : Entry} (rest : Ledger t runs journal)
      (other : entry.note.isLine t = false) : Ledger t runs (entry :: journal)
  /-- A run begins for a request, which is answered in the same step. -/
  | started {runs : Nat} {journal : List Entry} (time : Instant) (waiter : Option WaiterId)
      (rest : Ledger t runs journal) :
      Ledger t (runs + 1) (⟨time, .requested t waiter (.ok .started)⟩ ::
        ⟨time, .began ⟨t, runs + 1⟩ false⟩ :: journal)
  | folded {runs : Nat} {journal : List Entry} (time : Instant) (waiter : Option WaiterId)
      (rest : Ledger t runs journal) :
      Ledger t runs (⟨time, .requested t waiter (.ok .merged)⟩ :: journal)
  /-- An owed run begins: a request was folded since the last one did. -/
  | launched {runs : Nat} {journal : List Entry} (time : Instant) (rest : Ledger t runs journal)
      (owed : since (·.folds t) (·.launches t) journal = true) :
      Ledger t (runs + 1) (⟨time, .began ⟨t, runs + 1⟩ true⟩ :: journal)

namespace Ledger

variable {t : TaskId} {runs : Nat} {journal : List Entry}

/-- Runs are numbered without gaps. -/
theorem begun_iff (h : Ledger t runs journal) (k : Nat) :
    (∃ entry ∈ journal, ∃ merged, entry.note = .began ⟨t, k⟩ merged) ↔ 1 ≤ k ∧ k ≤ runs := by
  -- when a run begins, one more number is in use
  have begins {runs : Nat} {used : Prop} (ih : used ↔ 1 ≤ k ∧ k ≤ runs) :
      (runs + 1 = k ∨ used) ↔ 1 ≤ k ∧ k ≤ runs + 1 := by
    rw [ih]
    omega
  induction h with
  | blank =>
      simp only [List.not_mem_nil, false_and, exists_false, false_iff]
      omega
  | @aside runs journal entry rest other ih =>
      have plain (merged : Bool) : entry.note ≠ .began ⟨t, k⟩ merged := by
        intro begins
        rw [begins, Note.isLine_began, beq_self_eq_true] at other
        cases other
      simpa [plain] using ih
  | started time waiter rest ih => simpa using begins ih
  | folded time waiter rest ih => simpa using ih
  | launched time rest owed ih => simpa using begins ih

/-- Every run is there for a request that was answered by it, or is an owed one. -/
theorem countP (h : Ledger t runs journal) :
    journal.countP (·.note.launches t) + journal.countP (·.note.starts t) = runs := by
  induction h with
  | blank => rfl
  | @aside runs journal entry rest other ih =>
      simp only [Note.isLine, Bool.or_eq_false_iff] at other
      obtain ⟨⟨begins, starts⟩, -⟩ := other
      have launches : entry.note.launches t = false :=
        Bool.eq_false_iff.mpr fun launches => by
          rw [Note.begins_of_launches launches] at begins
          cases begins
      simpa [launches, starts] using ih
  | started time waiter rest ih =>
      simp only [List.countP_cons, Note.launches_requested, Note.launches_began, Note.starts_started,
        Note.starts_began, Bool.false_and, beq_self_eq_true, Bool.false_eq_true, if_true, if_false]
      omega
  | folded time waiter rest ih => simpa using ih
  | launched time rest owed ih =>
      simp only [List.countP_cons, Note.launches_began, Note.starts_began, Bool.true_and,
        beq_self_eq_true, Bool.false_eq_true, if_true, if_false]
      omega

/-- An entry of a journal is the newest one, or one of the rest. -/
theorem split_cons {first entry : Entry} {newer older : List Entry}
    (split : first :: journal = newer ++ entry :: older) :
    first = entry ∧ journal = older ∨ ∃ rest, journal = rest ++ entry :: older := by
  cases newer with
  | nil => exact .inl (List.cons.inj split)
  | cons second newer => exact .inr ⟨newer, (List.cons.inj split).2⟩

/-- When an owed run began, a request had been folded since the owed run before it. -/
theorem folded_of_launches (h : Ledger t runs journal) {newer older : List Entry} {entry : Entry}
    (split : journal = newer ++ entry :: older) (launches : entry.note.launches t = true) :
    since (·.folds t) (·.launches t) older = true := by
  induction h generalizing newer with
  | blank => simp at split
  | aside rest other ih =>
      rcases split_cons split with ⟨rfl, rfl⟩ | ⟨newer, split⟩
      · rw [Note.isLine, Note.begins_of_launches launches] at other
        cases other
      · exact ih split
  | started time waiter rest ih =>
      rcases split_cons split with ⟨rfl, -⟩ | ⟨newer, split⟩
      · cases launches
      · rcases split_cons split with ⟨rfl, -⟩ | ⟨newer, split⟩
        · cases launches
        · exact ih split
  | folded time waiter rest ih =>
      rcases split_cons split with ⟨rfl, -⟩ | ⟨newer, split⟩
      · cases launches
      · exact ih split
  | launched time rest owed ih =>
      rcases split_cons split with ⟨-, rfl⟩ | ⟨newer, split⟩
      · exact owed
      · exact ih split

end Ledger

namespace Engine

variable {e e' : Engine} {t : TaskId}

/-! ## 2. The journal is a ledger of every task -/

/-- The journal is a ledger of task `t` that agrees with the record. -/
abbrev KeepsLedger (t : TaskId) (e : Engine) : Prop := Ledger t (e.tallyOf t).runs e.journal

theorem KeepsLedger.of_same (h : e.KeepsLedger t) (same : e'.tallyOf t = e.tallyOf t)
    (notes : Notes (·.isLine t = false) e e') : e'.KeepsLedger t := by
  obtain ⟨entries, journal, others⟩ := notes
  rw [KeepsLedger, same, journal]
  clear journal
  induction entries with
  | nil => exact h
  | cons entry entries ih =>
      obtain ⟨other, others⟩ := List.forall_mem_cons.mp others
      exact .aside (ih others) other

theorem KeepsLedger.of_alike (h : e.KeepsLedger t) (alike : Alike e e') : e'.KeepsLedger t :=
  h.of_same (tallyOf_of_forall₂ (alike.tasks.imp fun _ _ alike => alike.tally) t)
    (alike.notes.mono fun _ remark => Note.isLine_of_isRemark remark t)

theorem KeepsLedger.request (h : e.KeepsLedger t) (s : TaskId) (waiter : Option WaiterId) :
    (e.request s waiter).1.KeepsLedger t := by
  have step := e.request_step s waiter
  generalize e.request s waiter = answer at step ⊢
  cases step with
  | refused err => exact h.of_same rfl (notes_cons rfl rfl)
  | skipped task known full =>
      exact (h.of_alike (aside_announce ..).alike).of_same rfl (notes_cons rfl rfl)
  | merged task known admits willing full overlap =>
      have tally : (e.updateTask s (·.fold waiter)).tallyOf t = e.tallyOf t :=
        tallyOf_updateTask (f := (·.fold waiter)) e s (fun _ => rfl) t
      have folded : (e.updateTask s (·.fold waiter)).KeepsLedger t := h.of_same tally (notes_nothing rfl)
      have told := folded.of_alike (aside_announce _ { kind := .runMerged, task := some task.name }
        (some s)).alike
      by_cases same : s = t
      · subst same
        exact .folded _ waiter told
      · exact told.of_same rfl (notes_cons rfl (by simp [same]))
  | started task known admits willing room =>
      have tasks : (e.beginRun s false waiter.toList).tasks = e.tasks.set s (task.begin e.now) := by
        rw [beginRun_eq known]
      show Ledger t ((e.beginRun s false waiter.toList).tallyOf t).runs
        (⟨_, _⟩ :: (e.beginRun s false waiter.toList).journal)
      rw [tallyOf_set known tasks, beginRun_eq known]
      by_cases same : t = s
      · subst same
        rw [KeepsLedger, tallyOf_of_known known] at h
        rw [if_pos rfl]
        exact .started _ waiter h
      · rw [if_neg same]
        exact .aside (.aside h (by simp [Ne.symm same])) (by simp [Ne.symm same])

theorem KeepsLedger.conclude {run : Run} {task : TaskRecord} (h : e.KeepsLedger t)
    (known : e.tasks[run.id.task]? = some task) (outcome : Outcome) :
    (e.conclude run task outcome).KeepsLedger t := by
  have tasks : (e.conclude run task outcome).tasks =
      e.tasks.set run.id.task (task.conclude e.phase e.now outcome) := rfl
  have runs : ((e.conclude run task outcome).tallyOf t).runs = (e.tallyOf t).runs := by
    rw [tallyOf_set known tasks]
    split
    · subst t
      rw [tallyOf_of_known known]
      exact task.conclude_runCount e.phase e.now outcome
    · rfl
  rw [KeepsLedger, runs]
  exact .aside h rfl

/-- A task shows that it owes a run only if a request was folded since the last one that was owed. -/
def Owes (t : TaskId) (e : Engine) : Prop := e.shows (.run t) = true → e.owes t = true

theorem Owes.change {l : Licence} (change : Change l e e') (quiet : e.Quiet) (h : e.Owes t) :
    e'.Owes t := by
  intro shows
  cases change.affects quiet (.run t) fun v _ => Debt.run_spares t v with
  | keeps shown told =>
      rw [shown] at shows
      exact told.trans (h shows)
  | incurs waiter new incurred shown told => exact told
  | pays shown told =>
      rw [shown] at shows
      cases shows
  | lapses shut shown =>
      rw [shown] at shows
      cases shows

theorem KeepsLedger.finish (h : e.KeepsLedger t) (owes : e.Owes t) (id : RunId) (outcome : Outcome) :
    (e.finish id outcome).KeepsLedger t := by
  have step := e.finish_step id outcome
  generalize e.finish id outcome = after at step ⊢
  cases step with
  | unknown => exact h
  | last run task found known settled => exact h.conclude known outcome
  | closed run task found known owed closing => exact h.conclude known outcome
  | again run task found known owed admits =>
      have concluded := h.conclude known outcome
      have known' := known_conclude known outcome
      have tasks : ((e.conclude run task outcome).beginRun run.id.task true task.parked).tasks =
          (e.conclude run task outcome).tasks.set run.id.task
            ((task.conclude e.phase e.now outcome).begin e.now) := by
        rw [beginRun_eq known']
        rfl
      rw [KeepsLedger, tallyOf_set known' tasks, beginRun_eq known']
      by_cases same : t = run.id.task
      · subst same
        rw [KeepsLedger, tallyOf_of_known known'] at concluded
        rw [if_pos rfl]
        exact .launched _ concluded (owes ((shows_of_known known _).trans owed))
      · rw [if_neg same]
        exact .aside concluded (by simp [Ne.symm same])

theorem KeepsLedger.change {l : Licence} (change : Change l e e') (owes : e.Owes t) (h : e.KeepsLedger t) :
    e'.KeepsLedger t := by
  cases change with
  | calm calm => exact h.of_alike calm.alike
  | register spec status accepted room =>
      exact h.of_same (tallyOf_register e spec status t) (notes_cons rfl rfl)
  | stop idle covers =>
      exact h.of_same (tallyOf_of_forall₂ (e.forall₂_stop.imp fun _ _ final => final ▸ rfl) t)
        (notes_nothing rfl)
  | drain closing covers =>
      exact h.of_same (tallyOf_of_forall₂ (e.forall₂_drainPending.imp fun _ _ forgotten =>
        forgotten ▸ rfl) t) (notes_nothing rfl)
  | request s => exact h.request s none
  | requestWaiting s covers => exact (h.of_alike (alike_drawSerial e s)).request s _
  | detach w leaves =>
      have tally := tallyOf_updateTask (f := (·.detach w)) e w.task (fun _ => rfl) t
      exact h.of_same tally (notes_nothing rfl)
  | finish id outcome covers => exact h.finish owes id outcome
  | abandon id refuses covers =>
      unfold Engine.abandon
      split
      · exact h.of_same rfl (notes_nothing rfl)
      · exact h

/-! ## 3. The order of runs in flight -/

/-- Of two runs of one task, the one that was launched first has the smaller number. -/
def Ranked (e : Engine) : Prop :=
  (e.runs.map (·.id)).Pairwise fun first second =>
    first.task = second.task → first.number < second.number

theorem Ranked.of_ids (h : e.Ranked) (ids : (e'.runs.map (·.id)).Sublist (e.runs.map (·.id))) :
    e'.Ranked :=
  List.Pairwise.sublist ids h

theorem Ranked.of_runs (h : e.Ranked) (runs : e'.runs.Sublist e.runs) : e'.Ranked :=
  h.of_ids (runs.map _)

theorem Ranked.beginRun {task : TaskRecord} (h : e.Ranked) (numbered : e.Numbered)
    (known : e.tasks[t]? = some task) (merged : Bool) (waiters : List WaiterId) :
    (e.beginRun t merged waiters).Ranked := by
  rw [Ranked, beginRun_eq known, List.map_append, List.pairwise_append]
  refine ⟨h, List.pairwise_singleton .., ?_⟩
  intro id mem last isLast same
  obtain ⟨run, memRun, rfl⟩ := List.mem_map.mp mem
  obtain rfl := List.mem_singleton.mp isLast
  -- the number that is given out lies above those in use
  obtain ⟨old, known', below⟩ := numbered.begun _ (numbered.inFlight run memRun)
  rw [same] at known'
  obtain rfl : task = old := Option.some.inj (known.symm.trans known')
  exact Nat.lt_succ_of_le below

theorem Ranked.request (h : e.Ranked) (numbered : e.Numbered) (t : TaskId)
    (waiter : Option WaiterId) : (e.request t waiter).1.Ranked := by
  have step := e.request_step t waiter
  generalize e.request t waiter = answer at step ⊢
  cases step with
  | refused err => exact h
  | skipped task known full => exact h
  | merged task known admits willing full overlap => exact h
  | started task known admits willing room => exact h.beginRun numbered known false _

theorem Ranked.finish (h : e.Ranked) (numbered : e.Numbered) (id : RunId) (outcome : Outcome) :
    (e.finish id outcome).Ranked := by
  have concluded (run : Run) (task : TaskRecord) : (e.conclude run task outcome).Ranked :=
    h.of_runs List.filter_sublist
  have step := e.finish_step id outcome
  generalize e.finish id outcome = after at step ⊢
  cases step with
  | unknown => exact h
  | last run task found known settled => exact concluded run task
  | closed run task found known owed closing => exact concluded run task
  | again run task found known owed admits =>
      exact (concluded run task).beginRun (numbered.conclude known outcome)
        (known_conclude known outcome) _ _

theorem Ranked.of_alike (h : e.Ranked) (alike : Alike e e') : e'.Ranked := by
  have ids (e : Engine) : e.runs.map (·.id) = (e.runs.map (·.berth)).map (·.1) := by
    rw [List.map_map]
    rfl
  rw [Ranked, ids, alike.runs, ← ids]
  exact h

theorem Ranked.change {l : Licence} (change : Change l e e') (numbered : e.Numbered)
    (h : e.Ranked) : e'.Ranked := by
  cases change with
  | calm calm => exact h.of_alike calm.alike
  | register spec status accepted room => exact h
  | stop idle covers => exact h
  | drain closing covers => exact h
  | request t => exact h.request numbered t none
  | requestWaiting t covers =>
      have drawn := alike_drawSerial e t
      exact (h.of_alike drawn).request (numbered.of_alike drawn) t _
  | detach w leaves => exact h
  | finish id outcome covers => exact h.finish numbered id outcome
  | abandon id refuses covers =>
      unfold Engine.abandon
      split
      · exact h.of_runs List.filter_sublist
      · exact h

/-! ## 4. All of it -/

/-- The runs of every task begin one after the other, as its ledger tells, and those in flight stand
in that order. -/
structure Consecutive (e : Engine) : Prop where
  quiet : e.Quiet
  numbered : e.Numbered
  owes : ∀ t, e.Owes t
  ledger : ∀ t, e.KeepsLedger t
  ranked : e.Ranked

theorem consecutive_create (config : Config) (subscribers : List Subscriber) :
    (create config subscribers).Consecutive :=
  ⟨quiet_create config subscribers, numbered_create config subscribers,
    (fun _ shows => nomatch shows), fun _ => .blank, .nil⟩

theorem Consecutive.change {l : Licence} (change : Change l e e') (h : e.Consecutive) :
    e'.Consecutive where
  quiet := h.quiet.change change
  numbered := h.numbered.change change
  owes t := (h.owes t).change change h.quiet
  ledger t := (h.ledger t).change change (h.owes t)
  ranked := h.ranked.change change h.numbered

theorem Consecutive.leads (h : e.Consecutive) (leads : Leads e e') : e'.Consecutive :=
  leads.keeps (fun _ _ _ => Consecutive.change) h

/-- The runs that have begun are those with the numbers up to the count of their task. -/
theorem Consecutive.hasBegun_iff {task : TaskRecord} (h : e.Consecutive)
    (known : e.tasks[t]? = some task) (k : Nat) :
    e.hasBegun ⟨t, k⟩ ↔ 1 ≤ k ∧ k ≤ task.runCount := by
  have ledger := h.ledger t
  rw [KeepsLedger, tallyOf_of_known known] at ledger
  exact ledger.begun_iff k

end Engine

end TaskEngine
