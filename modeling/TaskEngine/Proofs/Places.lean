/-
  TaskEngine/Proofs/Places.lean
  =============================
  **Where waiting callers are.**

  A caller that waits is aboard a run in flight, parked at its task, or told: the three places are
  counted separately, and for every function of the engine there is an equation that says how the
  numbers move between them.  Two things follow by counting.  Nobody is ever in more than one place,
  so nobody is told twice (`Kept.once`); and whoever was accepted and has not left is in some place,
  so nobody is lost (`Kept.kept`).

  That numbers of runs are not given twice, and that callers only wait with their own task, is an
  invariant of its own (`Housed`).
-/
import Mathlib.Algebra.BigOperators.Group.List.Basic
import TaskEngine.Proofs.Growth

namespace TaskEngine

/-! ## 1. Sums over lists -/

section Sums

variable {α : Type}

/-- One element of a list without repeated keys, and the others. -/
theorem perm_cons_filter_ne {κ : Type} [DecidableEq κ] {l : List α} {key : α → κ} {a : α}
    (unique : (l.map key).Nodup) (mem : a ∈ l) : l.Perm (a :: l.filter (key · != key a)) := by
  induction l with
  | nil => cases mem
  | cons b l ih =>
      obtain ⟨new, unique⟩ := List.nodup_cons.mp unique
      rcases List.mem_cons.mp mem with rfl | mem
      · have others : l.filter (key · != key a) = l := by
          refine List.filter_eq_self.mpr fun c hc => bne_iff_ne.mpr fun same => new ?_
          exact same ▸ List.mem_map_of_mem hc
        simp [others]
      · have differs : (key b != key a) = true :=
          bne_iff_ne.mpr fun same => new (same ▸ List.mem_map_of_mem mem)
        have kept : (b :: l).filter (key · != key a) = b :: l.filter (key · != key a) :=
          List.filter_cons_of_pos differs
        rw [kept]
        exact ((ih unique mem).cons b).trans (.swap a b _)

/-- What one element adds to a sum over a list without repeated keys. -/
theorem sum_map_filter_ne {κ : Type} [DecidableEq κ] {l : List α} {key : α → κ} {a : α}
    (unique : (l.map key).Nodup) (mem : a ∈ l) (f : α → Nat) :
    ((l.filter (key · != key a)).map f).sum + f a = (l.map f).sum := by
  rw [((perm_cons_filter_ne unique mem).map f).sum_eq, List.map_cons, List.sum_cons, Nat.add_comm]

end Sums

/-! ## 2. The three places -/

/-- The waiting caller whose request the note accepts. -/
def Note.accepted? : Note → Option WaiterId
  | .requested _ waiter (.ok _) => waiter
  | _ => none

theorem Note.accepted?_of_isRemark {n : Note} (h : n.isRemark = true) : n.accepted? = none := by
  cases n with
  | requested t waiter result => cases h
  | _ => rfl

namespace Engine

variable {e e' : Engine} {w : WaiterId}

/-- The waiting callers whose requests were accepted. -/
def accepted (e : Engine) : List WaiterId := e.journal.filterMap (·.note.accepted?)

/-- How often `w` waits for a run in flight. -/
def aboard (e : Engine) (w : WaiterId) : Nat := ((e.runs.map (·.berth)).map (·.2.count w)).sum

/-- How often `w` is parked. -/
def parked (e : Engine) (w : WaiterId) : Nat := (e.tasks.map (·.parked.count w)).sum

/-- How often `w` is told something. -/
def told (e : Engine) (w : WaiterId) : Nat := (e.mail.map (·.1)).count w

/-- How many places `w` is in. -/
def places (e : Engine) (w : WaiterId) : Nat := e.aboard w + e.parked w + e.told w

theorem Alike.accepted (h : Alike e e') : e'.accepted = e.accepted :=
  filterMap_of_notes (h.notes.mono fun _ => Note.accepted?_of_isRemark)

theorem Alike.places (h : Alike e e') (w : WaiterId) : e'.places w = e.places w := by
  have parked : e'.parked w = e.parked w := by
    unfold Engine.parked
    rw [map_eq_of_forall₂ h.tasks fun _ _ alike => by rw [alike.parked]]
  have aboard : e'.aboard w = e.aboard w := by
    unfold Engine.aboard
    rw [h.runs]
  have told : e'.told w = e.told w := by
    unfold Engine.told
    rw [h.mail]
  rw [Engine.places, parked, aboard, told, Engine.places]

/-! ### How the functions of the engine move callers -/

theorem told_deliver (e : Engine) (waiters : List WaiterId) (d : Delivery) (w : WaiterId) :
    (e.deliver waiters d).told w = e.told w + waiters.count w := by
  simp only [told, deliver, List.map_append, List.map_map, List.count_append]
  rw [Nat.add_comm]
  congr 2
  exact List.map_id _

@[simp] theorem places_deliver (e : Engine) (waiters : List WaiterId) (d : Delivery)
    (w : WaiterId) : (e.deliver waiters d).places w = e.places w + waiters.count w := by
  show e.aboard w + e.parked w + (e.deliver waiters d).told w = _
  rw [told_deliver, ← Nat.add_assoc]
  rfl

theorem parked_set {t : TaskId} {task new : TaskRecord} (known : e.tasks[t]? = some task)
    (e' : Engine) (tasks : e'.tasks = e.tasks.set t new) (w : WaiterId) :
    e'.parked w + task.parked.count w = e.parked w + new.parked.count w := by
  rw [parked, tasks]
  exact sum_map_set known new (·.parked.count w)

/-- Callers come aboard the run that begins. -/
theorem places_beginRun {t : TaskId} {task : TaskRecord} (known : e.tasks[t]? = some task)
    (merged : Bool) (waiters : List WaiterId) (w : WaiterId) :
    (e.beginRun t merged waiters).places w = e.places w + waiters.count w := by
  have parked : (e.beginRun t merged waiters).parked w = e.parked w := by
    have tasks : (e.beginRun t merged waiters).tasks = e.tasks.set t (task.begin e.now) := by
      rw [beginRun_eq known]
    exact Nat.add_right_cancel (parked_set known _ tasks w)
  have aboard : (e.beginRun t merged waiters).aboard w = e.aboard w + waiters.count w := by
    rw [beginRun_eq known]
    simp [Engine.aboard, Run.berth]
  have told : (e.beginRun t merged waiters).told w = e.told w := by
    rw [beginRun_eq known]
    rfl
  simp only [places, parked, aboard, told]
  omega

/-- A folded caller is parked. -/
theorem places_fold {t : TaskId} {task : TaskRecord} (known : e.tasks[t]? = some task)
    (waiter : Option WaiterId) (w : WaiterId) :
    (e.updateTask t (·.fold waiter)).places w = e.places w + waiter.toList.count w := by
  have moved := parked_set known (e.updateTask t (·.fold waiter))
    (modify_eq_set_of_getElem? known _) w
  have parked : (task.fold waiter).parked.count w = task.parked.count w + waiter.toList.count w :=
    List.count_append
  show e.aboard w + _ + e.told w = _
  rw [places]
  omega

theorem aboard_removeRun {run : Run} (unique : (e.runs.map (·.id)).Nodup) (mem : run ∈ e.runs)
    (w : WaiterId) : (e.removeRun run.id).aboard w + run.waiters.count w = e.aboard w := by
  simp only [Engine.aboard, removeRun, List.map_map]
  exact sum_map_filter_ne unique mem fun r => r.waiters.count w

/-- Whoever was aboard a run is told when it ends; whoever is parked for the owed run is in no
place until that is settled. -/
theorem places_conclude {run : Run} {task : TaskRecord} (unique : (e.runs.map (·.id)).Nodup)
    (mem : run ∈ e.runs) (known : e.tasks[run.id.task]? = some task) (outcome : Outcome)
    (w : WaiterId) :
    (e.conclude run task outcome).places w + (if task.pending then task.parked.count w else 0) =
      e.places w := by
  have left : (task.conclude e.phase e.now outcome).parked.count w +
      (if task.pending then task.parked.count w else 0) = task.parked.count w := by
    rw [TaskRecord.conclude_parked]
    split <;> simp
  have moved := parked_set known (e.conclude run task outcome) rfl w
  have freed := aboard_removeRun unique mem w
  have aboard : (e.conclude run task outcome).aboard w = (e.removeRun run.id).aboard w := rfl
  have told : (e.conclude run task outcome).told w = e.told w + run.waiters.count w :=
    told_deliver ..
  simp only [places]
  omega

theorem places_abandon {run : Run} (unique : (e.runs.map (·.id)).Nodup) (mem : run ∈ e.runs)
    (w : WaiterId) : ((e.removeRun run.id).deliver run.waiters .dropped).places w = e.places w := by
  have aboard := aboard_removeRun unique mem w
  rw [places_deliver]
  have parked : (e.removeRun run.id).parked w = e.parked w := rfl
  have told : (e.removeRun run.id).told w = e.told w := rfl
  simp only [places, parked, told]
  omega

/-- Whoever is parked when the engine is drained is told. -/
theorem places_drainPending (e : Engine) (w : WaiterId) : e.drainPending.places w = e.places w := by
  have none : e.drainPending.parked w = 0 := by
    simp [Engine.parked, drainPending, updateTasks, TaskRecord.forget, Function.comp_def]
  have told : e.drainPending.told w = e.told w + e.parked w := by
    show (e.deliver (e.tasks.flatMap (·.parked)) _).told w = _
    rw [told_deliver, List.count_flatMap]
    rfl
  have aboard : e.drainPending.aboard w = e.aboard w := rfl
  simp only [places]
  omega

theorem places_stop (e : Engine) (w : WaiterId) :
    ({ e with phase := .stopped }.finalize).places w = e.places w := by
  have drained := places_drainPending { e with phase := .stopped } w
  have parked : ({ e with phase := .stopped }.finalize).parked w =
      ({ e with phase := .stopped }.drainPending).parked w := by
    simp [Engine.parked, finalize, drainPending, updateTasks, TaskRecord.forget,
      TaskRecord.finalize, Function.comp_def]
  have told : ({ e with phase := .stopped }.finalize).told w =
      ({ e with phase := .stopped }.drainPending).told w := rfl
  have aboard : ({ e with phase := .stopped }.finalize).aboard w =
      ({ e with phase := .stopped }.drainPending).aboard w := rfl
  rw [places, parked, told, aboard]
  exact drained

theorem parked_detach (e : Engine) {leaver : WaiterId} {task : TaskRecord}
    (known : e.tasks[leaver.task]? = some task) (w : WaiterId) :
    (e.detach leaver).parked w + task.parked.count w =
      e.parked w + (task.detach leaver).parked.count w :=
  parked_set known (e.detach leaver) (modify_eq_set_of_getElem? known _) w

theorem detach_of_unknown {leaver : WaiterId} (unknown : e.tasks[leaver.task]? = none) :
    e.detach leaver = e := by
  have same : e.tasks.modify leaver.task (·.detach leaver) = e.tasks :=
    List.modify_eq_self (List.getElem?_eq_none_iff.mp unknown)
  rw [detach, updateTask, same]

/-- Whoever leaves is in fewer places, if in any. -/
theorem places_detach_le (e : Engine) (leaver w : WaiterId) :
    (e.detach leaver).places w ≤ e.places w := by
  cases known : e.tasks[leaver.task]? with
  | none => exact (detach_of_unknown known).symm ▸ Nat.le_refl _
  | some task =>
      have moved := parked_detach e known w
      have fewer : (task.detach leaver).parked.count w ≤ task.parked.count w :=
        List.filter_sublist.count_le w
      show e.aboard w + (e.detach leaver).parked w + e.told w ≤ _
      rw [places]
      omega

/-- Nobody else is moved. -/
theorem places_detach_of_ne (e : Engine) {leaver : WaiterId} (other : w ≠ leaver) :
    (e.detach leaver).places w = e.places w := by
  cases known : e.tasks[leaver.task]? with
  | none => rw [detach_of_unknown known]
  | some task =>
      have moved := parked_detach e known w
      have same : (task.detach leaver).parked.count w = task.parked.count w :=
        List.count_filter (bne_iff_ne.mpr other)
      show e.aboard w + (e.detach leaver).parked w + e.told w = _
      rw [places]
      omega

theorem parked_newRecord (e : Engine) (spec : ResolvedSpec) (status : TaskStatus) :
    (e.newRecord spec status).parked = [] :=
  (alike_newRecord e spec status).parked

theorem places_register (e : Engine) (spec : ResolvedSpec) (status : TaskStatus) (w : WaiterId) :
    (e.register spec status).places w = e.places w := by
  have parked : (e.register spec status).parked w = e.parked w := by
    show (List.map _ (e.tasks ++ [e.newRecord spec status])).sum = _
    simp [Engine.parked, parked_newRecord]
  show e.aboard w + (e.register spec status).parked w + e.told w = _
  rw [parked, places]

/-! ## 3. Callers wait with their own task -/

/-- No two runs have the same number, numbers are below the count of their task, and everybody who
waits does so for a run of the task that was asked for. -/
structure Housed (e : Engine) : Prop where
  unique : (e.runs.map (·.id)).Nodup
  counted : ∀ run ∈ e.runs, ∃ task, e.tasks[run.id.task]? = some task ∧
    run.id.number ≤ task.runCount
  aboard : ∀ run ∈ e.runs, ∀ w ∈ run.waiters, w.task = run.id.task
  parked : ∀ (t : TaskId) (task : TaskRecord), e.tasks[t]? = some task →
    ∀ w ∈ task.parked, w.task = t

theorem housed_create (config : Config) (subscribers : List Subscriber) :
    (create config subscribers).Housed :=
  ⟨List.nodup_nil, fun _ mem => absurd mem List.not_mem_nil,
    fun _ mem => absurd mem List.not_mem_nil, fun _ _ found => nomatch found⟩

/-- No run is new, and nobody is parked anew at the wrong task. -/
theorem Housed.of_grows (h : e.Housed) (grows : Grows e e')
    (runs : (e'.runs.map (·.berth)).Sublist (e.runs.map (·.berth)))
    (parked : ∀ (t : TaskId) (task : TaskRecord), e'.tasks[t]? = some task →
      ∀ w ∈ task.parked, w.task = t) : e'.Housed := by
  have older (run : Run) (mem : run ∈ e'.runs) : ∃ old ∈ e.runs, old.berth = run.berth :=
    List.mem_map.mp (runs.subset (List.mem_map_of_mem mem))
  refine ⟨?_, ?_, ?_, parked⟩
  · have ids := (runs.map Prod.fst).nodup (by simpa [Run.berth, Function.comp_def] using h.unique)
    simpa [Run.berth, Function.comp_def] using ids
  · intro run mem
    obtain ⟨old, memOld, berth⟩ := older run mem
    obtain ⟨sameId, -⟩ := Prod.mk.inj berth
    obtain ⟨task, found, below⟩ := h.counted old memOld
    obtain ⟨new, found', later⟩ := grows _ task found
    rw [← sameId]
    exact ⟨new, found', Nat.le_trans below later.runCount⟩
  · intro run mem
    obtain ⟨old, memOld, berth⟩ := older run mem
    obtain ⟨sameId, sameWaiters⟩ := Prod.mk.inj berth
    rw [← sameId, ← sameWaiters]
    exact h.aboard old memOld

theorem Housed.of_forall₂ {R : TaskRecord → TaskRecord → Prop} (h : e.Housed)
    (tasks : List.Forall₂ R e.tasks e'.tasks) (grows : Grows e e')
    (runs : (e'.runs.map (·.berth)).Sublist (e.runs.map (·.berth)))
    (keeps : ∀ old new, R old new → new.parked ⊆ old.parked) : e'.Housed := by
  apply h.of_grows grows runs
  intro t task found w mem
  obtain ⟨old, before, related⟩ := forall₂_getElem? tasks found
  exact h.parked t old before w (keeps old task related mem)

theorem Housed.of_alike (h : e.Housed) (alike : Alike e e') : e'.Housed :=
  h.of_forall₂ alike.tasks alike.grows (alike.runs ▸ List.Sublist.refl _)
    fun _ _ alike => alike.parked ▸ List.Subset.refl _

theorem Housed.register (h : e.Housed) (spec : ResolvedSpec) (status : TaskStatus) :
    (e.register spec status).Housed := by
  apply h.of_grows (grows_register e spec status) (List.Sublist.refl _)
  intro t task found w mem
  rcases getElem?_register e spec status t with same | ⟨-, new⟩
  · exact h.parked t task (same ▸ found) w mem
  · rw [← Option.some.inj (new.symm.trans found), parked_newRecord] at mem
    cases mem

theorem Housed.beginRun {t : TaskId} {task : TaskRecord} {waiters : List WaiterId} (h : e.Housed)
    (known : e.tasks[t]? = some task) (merged : Bool) (own : ∀ w ∈ waiters, w.task = t) :
    (e.beginRun t merged waiters).Housed := by
  have inside : t < e.tasks.length := (List.getElem?_eq_some_iff.mp known).1
  have grows := grows_beginRun known merged waiters
  rw [beginRun_eq known] at grows ⊢
  constructor
  · -- the number that is given out lies above all numbers of the task
    have new : (⟨t, task.runCount + 1⟩ : RunId) ∉ e.runs.map (·.id) := by
      intro taken
      obtain ⟨run, mem, same⟩ := List.mem_map.mp taken
      obtain ⟨task', known', below⟩ := h.counted run mem
      rw [same] at known' below
      obtain rfl : task = task' := Option.some.inj (known.symm.trans known')
      exact Nat.not_succ_le_self _ below
    rw [List.map_append]
    exact (List.nodup_cons.mpr ⟨new, h.unique⟩).perm (List.perm_append_singleton ..).symm
  · intro run mem
    rcases List.mem_append.mp mem with mem | mem
    · obtain ⟨old, found, below⟩ := h.counted run mem
      obtain ⟨new, found', later⟩ := grows _ old found
      exact ⟨new, found', Nat.le_trans below later.runCount⟩
    · obtain rfl := List.mem_singleton.mp mem
      exact ⟨task.begin e.now, List.getElem?_set_self inside, Nat.le_refl _⟩
  · intro run mem
    rcases List.mem_append.mp mem with mem | mem
    · exact h.aboard run mem
    · obtain rfl := List.mem_singleton.mp mem
      exact own
  · intro s other found
    rcases getElem?_set_some found with ⟨rfl, rfl⟩ | ⟨-, found⟩
    · exact h.parked s task known
    · exact h.parked s other found

theorem Housed.note (h : e.Housed) (n : Note) : (e.note n).Housed :=
  ⟨h.unique, h.counted, h.aboard, h.parked⟩

theorem Housed.deliver (h : e.Housed) (waiters : List WaiterId) (d : Delivery) :
    (e.deliver waiters d).Housed :=
  ⟨h.unique, h.counted, h.aboard, h.parked⟩

theorem Housed.conclude {run : Run} {task : TaskRecord} (h : e.Housed)
    (known : e.tasks[run.id.task]? = some task) (outcome : Outcome) :
    (e.conclude run task outcome).Housed := by
  apply h.of_grows (grows_conclude known outcome) (List.filter_sublist.map _)
  intro t other found w mem
  rcases getElem?_set_some found with ⟨rfl, rfl⟩ | ⟨-, found⟩
  · rw [TaskRecord.conclude_parked] at mem
    split at mem
    · cases mem
    · exact h.parked _ task known w mem
  · exact h.parked t other found w mem

theorem Housed.request (h : e.Housed) (t : TaskId) {waiter : Option WaiterId}
    (own : ∀ w ∈ waiter.toList, w.task = t) : (e.request t waiter).1.Housed := by
  have step := e.request_step t waiter
  generalize e.request t waiter = answer at step ⊢
  cases step with
  | refused err => exact h.note _
  | skipped task known full => exact (h.of_alike (aside_announce ..).alike).note _
  | merged task known admits willing full overlap =>
      have folded : (e.updateTask t (·.fold waiter)).Housed := by
        apply h.of_grows (grows_fold known waiter) (List.Sublist.refl _)
        intro s other found w mem
        have found : (e.tasks.modify t (·.fold waiter))[s]? = some other := found
        rw [modify_eq_set_of_getElem? known] at found
        rcases getElem?_set_some found with ⟨rfl, rfl⟩ | ⟨-, found⟩
        · rcases List.mem_append.mp mem with mem | mem
          · exact h.parked _ task known w mem
          · exact own w mem
        · exact h.parked s other found w mem
      exact (folded.of_alike (aside_announce ..).alike).note _
  | started task known admits willing room => exact (h.beginRun known false own).note _

theorem Housed.requestWaiting (h : e.Housed) (t : TaskId) : (e.requestWaiting t).1.Housed := by
  rw [requestWaiting_fst]
  apply (h.of_alike (alike_drawSerial e t)).request t
  intro w mem
  rw [List.mem_singleton.mp mem, nextWaiter]

theorem Housed.finish (h : e.Housed) (id : RunId) (outcome : Outcome) :
    (e.finish id outcome).Housed := by
  have step := e.finish_step id outcome
  generalize e.finish id outcome = after at step ⊢
  cases step with
  | unknown => exact h
  | last run task found known settled => exact h.conclude known outcome
  | closed run task found known owed closing => exact (h.conclude known outcome).deliver _ _
  | again run task found known owed admits =>
      exact (h.conclude known outcome).beginRun (known_conclude known outcome) true
        (h.parked _ task known)

theorem Housed.abandon (h : e.Housed) (id : RunId) : (e.abandon id).Housed := by
  unfold Engine.abandon
  cases e.run? id with
  | none => exact h
  | some run =>
      have removed : (e.removeRun id).Housed :=
        h.of_grows (grows_of_eq rfl) (List.filter_sublist.map _) h.parked
      exact removed.deliver _ _

theorem Housed.drainPending (h : e.Housed) : e.drainPending.Housed :=
  h.of_forall₂ e.forall₂_drainPending
    (grows_drainPending e) (List.Sublist.refl _) fun _ _ forgotten => forgotten ▸ List.nil_subset _

theorem Housed.stop (h : e.Housed) : ({ e with phase := .stopped }.finalize).Housed :=
  h.of_forall₂ e.forall₂_stop (grows_stop e) (List.Sublist.refl _)
    fun _ _ final => final ▸ List.nil_subset _

theorem Housed.detach (h : e.Housed) (leaver : WaiterId) : (e.detach leaver).Housed := by
  refine h.of_forall₂ (e.forall₂_detach leaver) (grows_detach e leaver) (List.Sublist.refl _) ?_
  intro _ _ which
  rcases which with rfl | rfl
  · exact List.Subset.refl _
  · exact List.filter_subset_self _

theorem Housed.change {l : Licence} (change : Change l e e') (h : e.Housed) : e'.Housed := by
  cases change with
  | calm calm => exact h.of_alike calm.alike
  | register spec status accepted room => exact h.register spec status
  | stop idle covers => exact h.stop
  | drain closing covers => exact h.drainPending
  | request t => exact h.request t fun _ mem => absurd mem List.not_mem_nil
  | requestWaiting t covers => exact h.requestWaiting t
  | detach w leaves => exact h.detach w
  | finish id outcome covers => exact h.finish id outcome
  | abandon id refuses covers => exact h.abandon id

/-! ## 4. Nobody is lost, and nobody is told twice -/

/-- Every caller is in one place at most, and one that was accepted and has not gone is in one. -/
structure Kept (gone : WaiterId → Prop) (e : Engine) : Prop where
  serials : ∀ w, w ∈ e.accepted ∨ 0 < e.places w →
    ∃ task, e.tasks[w.task]? = some task ∧ w.serial < task.nextSerial
  once : ∀ w, e.places w ≤ 1
  kept : ∀ w ∈ e.accepted, ¬gone w → 0 < e.places w

section Kept

variable {gone : WaiterId → Prop}

theorem kept_create (gone : WaiterId → Prop) (config : Config) (subscribers : List Subscriber) :
    Kept gone (create config subscribers) :=
  ⟨fun _ h => h.elim (fun mem => absurd mem List.not_mem_nil) (fun some => absurd some (Nat.lt_irrefl 0)),
    fun _ => Nat.zero_le _, fun _ mem => absurd mem List.not_mem_nil⟩

/-- A caller that was in no place is accepted into one. -/
theorem Kept.accept (h : Kept gone e) (waiter : Option WaiterId) (grows : Grows e e')
    (accepted : e'.accepted = waiter.toList ++ e.accepted)
    (places : ∀ w, e'.places w = e.places w + waiter.toList.count w)
    (fresh : ∀ w ∈ waiter.toList, e.places w = 0 ∧
      ∃ task, e.tasks[w.task]? = some task ∧ w.serial < task.nextSerial) : Kept gone e' := by
  have single (w : WaiterId) : waiter.toList.count w ≤ 1 := by
    cases waiter with
    | none => exact Nat.zero_le _
    | some new => exact List.count_le_length
  constructor
  · intro w known
    have before : ∃ task, e.tasks[w.task]? = some task ∧ w.serial < task.nextSerial := by
      rw [accepted, places, List.mem_append, Nat.add_pos_iff_pos_or_pos, List.count_pos_iff] at known
      rcases known with (mem | known) | (known | mem)
      · exact (fresh w mem).2
      · exact h.serials w (.inl known)
      · exact h.serials w (.inr known)
      · exact (fresh w mem).2
    obtain ⟨task, found, below⟩ := before
    obtain ⟨new, found', later⟩ := grows _ task found
    exact ⟨new, found', Nat.lt_of_lt_of_le below later.nextSerial⟩
  · intro w
    rw [places]
    by_cases mem : w ∈ waiter.toList
    · rw [(fresh w mem).1, Nat.zero_add]
      exact single w
    · rw [List.count_eq_zero.mpr mem]
      exact h.once w
  · intro w mem stays
    rw [places]
    rcases List.mem_append.mp (accepted ▸ mem) with mem | mem
    · exact Nat.lt_add_left _ (List.count_pos_iff.mpr mem)
    · exact Nat.lt_add_right _ (h.kept w mem stays)

/-- Callers move, but each stays in as many places as it was. -/
theorem Kept.of_grows (h : Kept gone e) (grows : Grows e e') (accepted : e'.accepted = e.accepted)
    (places : ∀ w, e'.places w = e.places w) : Kept gone e' :=
  h.accept none grows accepted places fun _ mem => absurd mem List.not_mem_nil

theorem Kept.of_alike (h : Kept gone e) (alike : Alike e e') : Kept gone e' :=
  h.of_grows alike.grows alike.accepted alike.places

theorem Kept.request (h : Kept gone e) (t : TaskId) {waiter : Option WaiterId}
    (fresh : ∀ task, e.tasks[t]? = some task → ∀ w ∈ waiter.toList, e.places w = 0 ∧
      ∃ task, e.tasks[w.task]? = some task ∧ w.serial < task.nextSerial) :
    Kept gone (e.request t waiter).1 := by
  have step := e.request_step t waiter
  generalize e.request t waiter = answer at step ⊢
  cases step with
  | refused err => exact h.of_grows (grows_of_eq rfl) rfl fun _ => rfl
  | skipped task known full => exact h.of_grows (grows_of_eq rfl) rfl fun _ => rfl
  | merged task known admits willing full overlap =>
      refine h.accept waiter ((grows_fold known waiter).trans (grows_of_eq rfl)) ?_
        (places_fold known waiter) (fresh task known)
      cases waiter <;> rfl
  | started task known admits willing room =>
      refine h.accept waiter ((grows_beginRun known false _).trans (grows_of_eq rfl)) ?_
        (places_beginRun known false _) (fresh task known)
      rw [beginRun_eq known]
      cases waiter <;> rfl

/-- The number of the next caller has not been given out. -/
theorem Kept.places_nextWaiter (h : Kept gone e) {t : TaskId} {task : TaskRecord}
    (known : e.tasks[t]? = some task) : e.places (e.nextWaiter t) = 0 := by
  apply Nat.eq_zero_of_not_pos
  intro some
  obtain ⟨task', known', below⟩ := h.serials _ (.inr some)
  obtain rfl : task = task' := Option.some.inj (known.symm.trans known')
  rw [nextWaiter, known] at below
  exact Nat.lt_irrefl _ below

theorem Kept.requestWaiting (h : Kept gone e) (t : TaskId) :
    Kept gone (e.requestWaiting t).1 := by
  have drawn := alike_drawSerial e t
  rw [requestWaiting_fst]
  apply (h.of_alike drawn).request t
  intro new found w mem
  rw [List.mem_singleton.mp mem]
  obtain ⟨task, known, -⟩ := forall₂_getElem? drawn.tasks found
  refine ⟨(drawn.places _).trans (h.places_nextWaiter known), new, found, ?_⟩
  have found : (e.tasks.modify t _)[t]? = some new := found
  rw [List.getElem?_modify_eq, known] at found
  obtain rfl := Option.some.inj found
  rw [nextWaiter, known]
  exact Nat.lt_succ_self _

theorem Kept.finish (h : Kept gone e) (housed : e.Housed) (id : RunId) (outcome : Outcome) :
    Kept gone (e.finish id outcome) := by
  have step := e.finish_step id outcome
  generalize e.finish id outcome = after at step ⊢
  cases step with
  | unknown => exact h
  | last run task found known settled =>
      apply h.of_grows (grows_conclude known outcome) rfl
      intro w
      have moved := places_conclude housed.unique (mem_of_run? found).1 known outcome w
      rw [settled] at moved
      exact moved
  | closed run task found known owed closing =>
      refine h.of_grows ((grows_conclude known outcome).trans (grows_of_eq rfl)) rfl ?_
      intro w
      have moved := places_conclude housed.unique (mem_of_run? found).1 known outcome w
      rw [owed] at moved
      rw [places_deliver]
      exact moved
  | again run task found known owed admits =>
      have free := known_conclude known outcome
      refine h.of_grows ((grows_conclude known outcome).trans (grows_beginRun free _ _)) ?_
        ?_
      · rw [beginRun_eq free]
        rfl
      · intro w
        have moved := places_conclude housed.unique (mem_of_run? found).1 known outcome w
        rw [owed] at moved
        rw [places_beginRun free]
        exact moved

theorem Kept.abandon (h : Kept gone e) (housed : e.Housed) (id : RunId) :
    Kept gone (e.abandon id) := by
  unfold Engine.abandon
  cases found : e.run? id with
  | none => exact h
  | some run =>
      obtain ⟨mem, rfl⟩ := mem_of_run? found
      exact h.of_grows (grows_of_eq rfl) rfl (places_abandon housed.unique mem)

theorem Kept.detach (h : Kept gone e) (leaver : WaiterId)
    (leaves : leaver ∈ e.accepted → gone leaver) : Kept gone (e.detach leaver) := by
  constructor
  · intro w known
    have before : w ∈ e.accepted ∨ 0 < e.places w :=
      known.imp id fun some => Nat.lt_of_lt_of_le some (places_detach_le e leaver w)
    obtain ⟨task, found, below⟩ := h.serials w before
    obtain ⟨new, found', later⟩ := grows_detach e leaver _ task found
    exact ⟨new, found', Nat.lt_of_lt_of_le below later.nextSerial⟩
  · intro w
    exact Nat.le_trans (places_detach_le e leaver w) (h.once w)
  · intro w mem stays
    have other : w ≠ leaver := by
      rintro rfl
      exact stays (leaves mem)
    rw [places_detach_of_ne e other]
    exact h.kept w mem stays

theorem Kept.change {l : Licence} (change : Change l e e') (housed : e.Housed)
    (leaves : ∀ w, l.leaves w → gone w) (h : Kept gone e) : Kept gone e' := by
  cases change with
  | calm calm => exact h.of_alike calm.alike
  | register spec status accepted room =>
      exact h.of_grows (grows_register e spec status) rfl (places_register e spec status)
  | stop idle covers => exact h.of_grows (grows_stop e) rfl (places_stop e)
  | drain closing covers => exact h.of_grows (grows_drainPending e) rfl (places_drainPending e)
  | request t => exact h.request t fun _ _ _ mem => absurd mem List.not_mem_nil
  | requestWaiting t covers => exact h.requestWaiting t
  | detach w left => exact h.detach w fun _ => leaves w left
  | finish id outcome covers => exact h.finish housed id outcome
  | abandon id refuses covers => exact h.abandon housed id

end Kept

end Engine

end TaskEngine
