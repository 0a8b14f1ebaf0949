/-
  TaskEngine/Proofs/Beginnings.lean
  =================================
  **Runs begin after the requests that they answer.**

  Runs that have begun are numbered up to the count of their task, and runs in flight have begun
  (`Numbered`).  Callers come aboard a run when it begins, so a caller that was in no place before
  its request is never aboard a run that had begun by then (`not_hasBegun_of_aboard`), and is not
  told how one ended (`toldLater_of_mem`).
-/
import TaskEngine.Proofs.Notes
import TaskEngine.Proofs.Waiters

namespace TaskEngine

namespace Engine

variable {e e' : Engine} {t : TaskId} {w : WaiterId}

/-! ## 1. The numbers of runs -/

def hasBegun (e : Engine) (id : RunId) : Prop :=
  ∃ entry ∈ e.journal, ∃ merged, entry.note = .began id merged

theorem hasBegun_of_notes {p : Note → Prop} (h : Notes p e e') {id : RunId} (begun : e.hasBegun id) :
    e'.hasBegun id := by
  obtain ⟨entries, journal, -⟩ := h
  obtain ⟨entry, mem, merged, begins⟩ := begun
  exact ⟨entry, journal ▸ List.mem_append_right _ mem, merged, begins⟩

/-- Runs that have begun are numbered up to the count of their task, and runs in flight have begun. -/
structure Numbered (e : Engine) : Prop where
  begun : ∀ id, e.hasBegun id → ∃ task, e.tasks[id.task]? = some task ∧ id.number ≤ task.runCount
  inFlight : ∀ run ∈ e.runs, e.hasBegun run.id

theorem numbered_create (config : Config) (subscribers : List Subscriber) :
    (create config subscribers).Numbered :=
  ⟨fun _ ⟨_, mem, _⟩ => absurd mem List.not_mem_nil, fun _ mem => absurd mem List.not_mem_nil⟩

theorem Numbered.of_grows (h : e.Numbered) (grows : Grows e e')
    (notes : Notes (fun n => ∀ id merged, n ≠ .began id merged) e e')
    (runs : ∀ run ∈ e'.runs, ∃ old ∈ e.runs, old.id = run.id) : e'.Numbered := by
  obtain ⟨entries, journal, none⟩ := notes
  constructor
  · rintro id ⟨entry, mem, merged, begins⟩
    rw [journal] at mem
    rcases List.mem_append.mp mem with mem | mem
    · exact absurd begins (none entry mem id merged)
    · obtain ⟨task, known, below⟩ := h.begun id ⟨entry, mem, merged, begins⟩
      obtain ⟨new, known, later⟩ := grows _ task known
      exact ⟨new, known, Nat.le_trans below later.runCount⟩
  · intro run mem
    obtain ⟨old, mem, same⟩ := runs run mem
    obtain ⟨entry, mem, merged, begins⟩ := h.inFlight old mem
    exact ⟨entry, journal ▸ List.mem_append_right _ mem, merged, same ▸ begins⟩

theorem Numbered.beginRun {task : TaskRecord} (h : e.Numbered) (known : e.tasks[t]? = some task)
    (merged : Bool) (waiters : List WaiterId) : (e.beginRun t merged waiters).Numbered := by
  have grows := grows_beginRun known merged waiters
  have inside : t < e.tasks.length := (List.getElem?_eq_some_iff.mp known).1
  rw [beginRun_eq known] at grows ⊢
  constructor
  · rintro id ⟨entry, mem, merged', begins⟩
    rcases List.mem_cons.mp mem with rfl | mem
    · cases begins
      exact ⟨task.begin e.now, List.getElem?_set_self inside, Nat.le_refl _⟩
    · obtain ⟨old, known, below⟩ := h.begun id ⟨entry, mem, merged', begins⟩
      obtain ⟨new, known, later⟩ := grows _ old known
      exact ⟨new, known, Nat.le_trans below later.runCount⟩
  · intro run mem
    rcases List.mem_append.mp mem with mem | mem
    · obtain ⟨entry, mem, merged', begins⟩ := h.inFlight run mem
      exact ⟨entry, List.mem_cons_of_mem _ mem, merged', begins⟩
    · obtain rfl := List.mem_singleton.mp mem
      exact ⟨_, List.mem_cons_self, merged, rfl⟩

theorem Numbered.of_alike (h : e.Numbered) (alike : Alike e e') : e'.Numbered := by
  refine h.of_grows alike.grows ?_ fun run mem => ?_
  · refine alike.notes.mono ?_
    rintro _ remark id merged rfl
    cases remark
  · have mem : run.berth ∈ e.runs.map (·.berth) := alike.runs ▸ List.mem_map_of_mem mem
    obtain ⟨old, memOld, berth⟩ := List.mem_map.mp mem
    exact ⟨old, memOld, congrArg Prod.fst berth⟩

theorem Numbered.note (h : e.Numbered) {n : Note} (other : ∀ id merged, n ≠ .began id merged) :
    (e.note n).Numbered :=
  h.of_grows (grows_of_eq rfl) (notes_cons rfl other) fun run mem => ⟨run, mem, rfl⟩

theorem Numbered.request (h : e.Numbered) (t : TaskId) (waiter : Option WaiterId) :
    (e.request t waiter).1.Numbered := by
  have step := e.request_step t waiter
  generalize e.request t waiter = answer at step ⊢
  cases step with
  | refused err => exact h.note nofun
  | skipped task known full => exact (h.of_alike (aside_announce ..).alike).note nofun
  | merged task known admits willing full overlap =>
      have folded : (e.updateTask t (·.fold waiter)).Numbered :=
        h.of_grows (grows_fold known waiter) (notes_nothing rfl) fun run mem => ⟨run, mem, rfl⟩
      exact (folded.of_alike (aside_announce ..).alike).note nofun
  | started task known admits willing room => exact (h.beginRun known false _).note nofun

theorem Numbered.conclude {run : Run} {task : TaskRecord} (h : e.Numbered)
    (known : e.tasks[run.id.task]? = some task) (outcome : Outcome) :
    (e.conclude run task outcome).Numbered :=
  h.of_grows (grows_conclude known outcome) (notes_cons rfl nofun)
    fun run mem => ⟨run, List.mem_of_mem_filter mem, rfl⟩

theorem Numbered.finish (h : e.Numbered) (id : RunId) (outcome : Outcome) :
    (e.finish id outcome).Numbered := by
  have step := e.finish_step id outcome
  generalize e.finish id outcome = after at step ⊢
  cases step with
  | unknown => exact h
  | last run task found known settled => exact h.conclude known outcome
  | closed run task found known owed closing =>
      exact (h.conclude known outcome).of_grows (grows_of_eq rfl) (notes_nothing rfl)
        fun run mem => ⟨run, mem, rfl⟩
  | again run task found known owed admits =>
      exact (h.conclude known outcome).beginRun (known_conclude known outcome) _ _

theorem Numbered.change {l : Licence} (change : Change l e e') (h : e.Numbered) : e'.Numbered := by
  cases change with
  | calm calm => exact h.of_alike calm.alike
  | register spec status accepted room =>
      exact h.of_grows (grows_register e spec status) (notes_cons rfl nofun)
        fun run mem => ⟨run, mem, rfl⟩
  | stop idle covers =>
      exact h.of_grows (grows_stop e) (notes_nothing rfl) fun run mem => ⟨run, mem, rfl⟩
  | drain closing covers =>
      exact h.of_grows (grows_drainPending e) (notes_nothing rfl) fun run mem => ⟨run, mem, rfl⟩
  | request t => exact h.request t none
  | requestWaiting t covers => exact (h.of_alike (alike_drawSerial e t)).request t _
  | detach w leaves =>
      exact h.of_grows (grows_detach e w) (notes_nothing rfl) fun run mem => ⟨run, mem, rfl⟩
  | finish id outcome covers => exact h.finish id outcome
  | abandon id refuses covers =>
      unfold Engine.abandon
      split
      · exact h.of_grows (grows_of_eq rfl) (notes_nothing rfl)
          fun run mem => ⟨run, List.mem_of_mem_filter mem, rfl⟩
      · exact h

/-! ## 2. Who is aboard -/

/-- Whoever is aboard a run, and was aboard none before, came aboard one that had not begun. -/
theorem not_hasBegun_of_aboard {moves : List Move} (admitted : e.admits moves = true)
    (housed : e.Housed) (numbered : e.Numbered) (nowhere : ∀ run ∈ e.runs, w ∉ run.waiters)
    {run : Run} (mem : run ∈ (e.after moves).runs) (aboard : w ∈ run.waiters) :
    ¬e.hasBegun run.id := by
  intro begun
  obtain ⟨task, known, below⟩ := numbered.begun run.id begun
  obtain ⟨before, m, rest, rfl, absent, r, memR, sameId, hw⟩ := origin_of_after
    (P := fun e => ∃ r ∈ e.runs, r.id = run.id ∧ w ∈ r.waiters)
    (fun ⟨r, mem, _, hw⟩ => nowhere r mem hw) ⟨run, mem, rfl, aboard⟩
  rw [admits_append, admits_cons] at admitted
  obtain ⟨first, allowed, -⟩ := admitted
  have housed' := keeps_after (fun _ _ _ => Housed.change) first housed
  have boards := ((covers_perform housed' allowed).boards r memR w hw).resolve_left
    fun ⟨old, memOld, same, hOld⟩ => absent ⟨old, memOld, same.trans sameId, hOld⟩
  obtain ⟨now, known', later⟩ := grows_after first _ task known
  -- the number that was given out lies above those that were in use
  rw [sameId] at boards
  generalize run.id = id at boards below known'
  have above : now.runCount < id.number := by
    cases boards with
    | started known =>
        obtain rfl := Option.some.inj (known.symm.trans known')
        exact Nat.lt_succ_self _
    | owed known parked admits =>
        obtain rfl := Option.some.inj (known.symm.trans known')
        exact Nat.lt_succ_self _
  exact Nat.not_le_of_lt above (Nat.le_trans below later.runCount)

/-- What a caller may be told who asked in state `e`: that the engine is closed, nothing, or how a
run ended that had not begun then. -/
inductive ToldLater (e : Engine) (moves : List Move) (w : WaiterId) : Delivery → Prop where
  | ended {before rest : List Move} {id : RunId} {outcome : Outcome} {run : Run}
      (split : moves = before ++ .finish id outcome :: rest)
      (found : (e.after before).run? id = some run) (aboard : w ∈ run.waiters)
      (later : ¬e.hasBegun id) (begun : (e.after before).hasBegun id) :
      ToldLater e moves w (.answered (outcome.waitResult !(e.after before).isOpen))
  | closed : ToldLater e moves w (.answered (.error .closed))
  | dropped : ToldLater e moves w .dropped

theorem toldLater_of_mem {moves : List Move} (admitted : e.admits moves = true)
    (housed : e.Housed) (numbered : e.Numbered) (nowhere : e.places w = 0) {d : Delivery}
    (told : (w, d) ∈ (e.after moves).mail) : ToldLater e moves w d := by
  obtain ⟨⟨flying, -⟩, untold⟩ : (e.aboard w = 0 ∧ e.parked w = 0) ∧ e.told w = 0 := by
    rwa [places, Nat.add_eq_zero_iff, Nat.add_eq_zero_iff] at nowhere
  rw [aboard_eq] at flying
  have silent : (w, d) ∉ e.mail := fun mem =>
    List.count_eq_zero.mp untold (List.mem_map_of_mem (f := Prod.fst) mem)
  obtain ⟨before, m, rest, split, absent, present⟩ := origin_of_after
    (P := fun e => (w, d) ∈ e.mail) silent told
  have parts := admitted
  rw [split, admits_append, admits_cons] at parts
  obtain ⟨first, allowed, -⟩ := parts
  have housed' := keeps_after (fun _ _ _ => Housed.change) first housed
  cases ((covers_perform housed' allowed).told w d present).resolve_left absent with
  | ended found aboard =>
      obtain ⟨mem, rfl⟩ := mem_of_run? found
      have numbered' := keeps_after (fun _ _ _ => Numbered.change) first numbered
      exact .ended split found aboard
        (not_hasBegun_of_aboard first housed numbered (not_mem_of_sum_count_eq_zero flying) mem aboard)
        (numbered'.inFlight _ mem)
  | closed same known parked closing => exact .closed
  | drained shuts known parked => exact .closed
  | dropped found aboard => exact .dropped

end Engine

end TaskEngine
