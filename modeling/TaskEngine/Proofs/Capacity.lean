/-
  TaskEngine/Proofs/Capacity.lean
  ===============================
  **A task never has more runs than it has room for.**

  The number of runs that a record keeps is compared with what the journal says about beginnings and
  ends.  They agree in every state, so the place that a run gives back when it ends is always one
  that was taken.  The invariant (`TaskRecord.Sound`) has one more part than the bound itself: a run
  can only be owed by a task that merges and that is full.  Without it the run that is begun in
  place of one that ended might be one too many.

  `runs_within_capacity` is the result for all histories.
-/
import TaskEngine.Proofs.Changes

namespace TaskEngine

/-! ## 1. Accounts of runs -/

namespace Note

def begins (t : TaskId) : Note → Bool
  | .began id _ => id.task == t
  | _ => false

def ends (t : TaskId) : Note → Bool
  | .finished id _ => id.task == t
  | _ => false

theorem begins_of_isRemark {n : Note} (h : n.isRemark = true) (t : TaskId) :
    n.begins t = false := by
  cases n <;> first | rfl | cases h

theorem ends_of_isRemark {n : Note} (h : n.isRemark = true) (t : TaskId) : n.ends t = false := by
  cases n <;> first | rfl | cases h

end Note

namespace Engine

variable {e e' : Engine} {t : TaskId}

def begun (e : Engine) (t : TaskId) : Nat := e.journal.countP (·.note.begins t)

def ended (e : Engine) (t : TaskId) : Nat := e.journal.countP (·.note.ends t)

def inFlight (e : Engine) (t : TaskId) : Nat := (e.runs.map (·.berth)).countP (·.1.task == t)

/-- The two states have the same accounts of the runs of task `t`. -/
structure SameAccounts (t : TaskId) (e e' : Engine) : Prop where
  begun : e'.begun t = e.begun t
  ended : e'.ended t = e.ended t
  inFlight : e'.inFlight t = e.inFlight t

theorem Alike.accounts (h : Alike e e') (t : TaskId) : SameAccounts t e e' := by
  constructor
  · exact countP_of_notes (h.notes.mono fun _ remark => Note.begins_of_isRemark remark t)
  · exact countP_of_notes (h.notes.mono fun _ remark => Note.ends_of_isRemark remark t)
  · unfold Engine.inFlight
    rw [h.runs]

theorem SameAccounts.of_eq (runs : e'.runs = e.runs) (journal : e'.journal = e.journal) :
    SameAccounts t e e' :=
  ⟨by simp only [Engine.begun, journal], by simp only [Engine.ended, journal],
    by simp only [Engine.inFlight, runs]⟩

theorem SameAccounts.note (e : Engine) {n : Note} (begins : n.begins t = false)
    (ends : n.ends t = false) : SameAccounts t e (e.note n) :=
  ⟨List.countP_cons_of_neg (by simp [begins]), List.countP_cons_of_neg (by simp [ends]), rfl⟩

/-! ### A run begins -/

theorem inFlight_beginRun {task : TaskRecord} (known : e.tasks[t]? = some task) (merged : Bool)
    (waiters : List WaiterId) : (e.beginRun t merged waiters).inFlight t = e.inFlight t + 1 := by
  rw [beginRun_eq known]
  simp [Engine.inFlight, Run.berth]

theorem inFlight_beginRun_of_ne {s : TaskId} {task : TaskRecord} (known : e.tasks[t]? = some task)
    (merged : Bool) (waiters : List WaiterId) (other : s ≠ t) :
    (e.beginRun t merged waiters).inFlight s = e.inFlight s := by
  rw [beginRun_eq known]
  simpa [Engine.inFlight, Run.berth] using Ne.symm other

theorem begun_beginRun {task : TaskRecord} (known : e.tasks[t]? = some task) (merged : Bool)
    (waiters : List WaiterId) (s : TaskId) :
    (e.beginRun t merged waiters).begun s = e.begun s + if s = t then 1 else 0 := by
  rw [beginRun_eq known, Engine.begun, List.countP_cons]
  by_cases same : s = t
  · simp [Note.begins, same, Engine.begun]
  · simp [Note.begins, same, Ne.symm same, Engine.begun]

/-! ### A run is removed -/

theorem inFlight_filter_of_ne {runs : List Run} {id : RunId} (other : id.task ≠ t) :
    ((runs.filter (·.id != id)).map (·.berth)).countP (·.1.task == t) =
      (runs.map (·.berth)).countP (·.1.task == t) := by
  simp only [List.countP_map, List.countP_filter]
  apply List.countP_congr
  intro run _
  simp only [Function.comp_apply, Run.berth, Bool.and_eq_true, beq_iff_eq, bne_iff_ne, ne_eq,
    and_iff_left_iff_imp]
  rintro same rfl
  exact other same

theorem inFlight_filter_le (runs : List Run) (id : RunId) (t : TaskId) :
    ((runs.filter (·.id != id)).map (·.berth)).countP (·.1.task == t) ≤
      (runs.map (·.berth)).countP (·.1.task == t) :=
  (List.filter_sublist.map _).countP_le

theorem inFlight_filter_lt {runs : List Run} {run : Run} (mem : run ∈ runs) :
    ((runs.filter (·.id != run.id)).map (·.berth)).countP (·.1.task == run.id.task) <
      (runs.map (·.berth)).countP (·.1.task == run.id.task) := by
  simp only [List.countP_map]
  rw [List.countP_eq_countP_filter_add runs _ (·.id != run.id)]
  refine Nat.lt_add_of_pos_right (List.countP_pos_iff.mpr ⟨run, ?_, ?_⟩)
  · simp [mem]
  · simp [Run.berth]

end Engine

/-! ## 2. The invariant of a record -/

namespace TaskRecord

variable {task new : TaskRecord} {begun ended inFlight : Nat}

/-- What holds between a record and the accounts of the runs of its task. -/
structure Sound (task : TaskRecord) (begun ended inFlight : Nat) : Prop where
  room : 0 < task.spec.maxConcurrent
  bounded : task.running ≤ task.spec.maxConcurrent
  counted : task.running + ended = begun
  present : inFlight ≤ task.running
  owed : task.pending = true →
    task.spec.overlap = .merge ∧ task.running = task.spec.maxConcurrent
  parked : task.parked ≠ [] → task.pending = true

theorem Sound.of_alike (h : task.Sound begun ended inFlight) (alike : task.Alike new) :
    new.Sound begun ended inFlight := by
  obtain ⟨spec, running, pending, parked, -, -⟩ := alike
  constructor
  · rw [spec]
    exact h.room
  · rw [spec, running]
    exact h.bounded
  · rw [running]
    exact h.counted
  · rw [running]
    exact h.present
  · rw [spec, running, pending]
    exact h.owed
  · rw [parked, pending]
    exact h.parked

theorem Sound.of_owing_less (h : task.Sound begun ended inFlight) (spec : new.spec = task.spec)
    (running : new.running = task.running)
    (owed : new.pending = true → task.pending = true)
    (parked : new.parked ≠ [] → new.pending = true) : new.Sound begun ended inFlight := by
  refine ⟨?_, ?_, ?_, ?_, ?_, parked⟩
  · rw [spec]
    exact h.room
  · rw [spec, running]
    exact h.bounded
  · rw [running]
    exact h.counted
  · rw [running]
    exact h.present
  · intro pending
    rw [spec, running]
    exact h.owed (owed pending)

theorem Sound.forget (h : task.Sound begun ended inFlight) :
    task.forget.Sound begun ended inFlight :=
  h.of_owing_less rfl rfl (fun owed => nomatch owed) (fun parked => absurd rfl parked)

theorem Sound.finalize (h : task.Sound begun ended inFlight) :
    task.finalize.Sound begun ended inFlight :=
  h.of_owing_less rfl rfl (fun owed => nomatch owed) (fun parked => absurd rfl parked)

theorem Sound.detach (h : task.Sound begun ended inFlight) (waiter : WaiterId) :
    (task.detach waiter).Sound begun ended inFlight := by
  refine h.of_owing_less rfl rfl id fun parked => h.parked ?_
  rintro none
  exact parked (by simp [TaskRecord.detach, none])

/-- A request is only folded into the owed run of a full task that merges. -/
theorem Sound.fold (h : task.Sound begun ended inFlight) (full : task.isFull = true)
    (overlap : task.spec.overlap = .merge) (waiter : Option WaiterId) :
    (task.fold waiter).Sound begun ended inFlight := by
  have reached : task.spec.maxConcurrent ≤ task.running := of_decide_eq_true full
  have exactly : task.running = task.spec.maxConcurrent := Nat.le_antisymm h.bounded reached
  exact ⟨h.room, h.bounded, h.counted, h.present, fun _ => ⟨overlap, exactly⟩, fun _ => rfl⟩

/-- A run that finds room owes nothing: only full tasks do. -/
theorem Sound.begin (h : task.Sound begun ended inFlight) (room : task.isFull = false)
    (now : Instant) : (task.begin now).Sound (begun + 1) ended (inFlight + 1) := by
  have free : task.running < task.spec.maxConcurrent :=
    Nat.lt_of_not_le (of_decide_eq_false room)
  have nothing : task.pending ≠ true := fun owed => Nat.ne_of_lt free (h.owed owed).2
  refine ⟨h.room, free, ?_, Nat.succ_le_succ h.present, fun owed => absurd owed nothing, h.parked⟩
  show task.running + 1 + ended = begun + 1
  rw [Nat.add_right_comm, h.counted]

/-- A run that ends gives back a place that was taken. -/
theorem Sound.conclude {left : Nat} (h : task.Sound begun ended inFlight) (fewer : left < inFlight)
    (phase : Phase) (now : Instant) (outcome : Outcome) :
    (task.conclude phase now outcome).Sound begun (ended + 1) left := by
  have present := h.present
  have bounded := h.bounded
  have counted := h.counted
  refine ⟨?_, ?_, ?_, ?_, (fun owed => nomatch owed), ?_⟩
  · rw [conclude_spec]
    exact h.room
  · rw [conclude_running, conclude_spec]
    omega
  · rw [conclude_running]
    omega
  · rw [conclude_running]
    omega
  · intro parked
    -- callers are parked in an owing task only, and what was owed is settled
    rw [conclude_parked] at parked
    split at parked
    · exact absurd rfl parked
    · exact absurd (h.parked parked) ‹_›

/-- The place that was given back is free. -/
theorem Sound.isFull_conclude (h : task.Sound begun ended inFlight) (taken : 0 < inFlight)
    (phase : Phase) (now : Instant) (outcome : Outcome) :
    (task.conclude phase now outcome).isFull = false := by
  have present := h.present
  have bounded := h.bounded
  rw [isFull, conclude_spec, conclude_running, decide_eq_false_iff_not]
  omega

end TaskRecord

/-! ## 3. The invariant of an engine -/

namespace Engine

variable {e e' : Engine} {t : TaskId}

/-- Every record is sound, and there are no runs of unknown tasks. -/
structure Sound (e : Engine) : Prop where
  known : ∀ (t : TaskId) (task : TaskRecord), e.tasks[t]? = some task →
    task.Sound (e.begun t) (e.ended t) (e.inFlight t)
  unknown : ∀ t : TaskId, e.tasks[t]? = none → e.begun t = 0 ∧ e.ended t = 0 ∧ e.inFlight t = 0

theorem Sound.of_forall₂ {R : TaskRecord → TaskRecord → Prop} (h : e.Sound)
    (tasks : List.Forall₂ R e.tasks e'.tasks) (accounts : ∀ t, SameAccounts t e e')
    (keeps : ∀ old new, R old new → ∀ b n i, old.Sound b n i → new.Sound b n i) : e'.Sound := by
  constructor
  · intro t new found
    obtain ⟨old, before, related⟩ := forall₂_getElem? tasks found
    rw [(accounts t).begun, (accounts t).ended, (accounts t).inFlight]
    exact keeps old new related _ _ _ (h.known t old before)
  · intro t none
    rw [(accounts t).begun, (accounts t).ended, (accounts t).inFlight]
    apply h.unknown t
    rw [List.getElem?_eq_none_iff] at none ⊢
    exact tasks.length_eq ▸ none

theorem Sound.of_set {task new : TaskRecord} (h : e.Sound) (found : e.tasks[t]? = some task)
    (tasks : e'.tasks = e.tasks.set t new) (others : ∀ s, s ≠ t → SameAccounts s e e')
    (sound : new.Sound (e'.begun t) (e'.ended t) (e'.inFlight t)) : e'.Sound := by
  constructor
  · intro s other hs
    rw [tasks] at hs
    rcases getElem?_set_some hs with ⟨rfl, rfl⟩ | ⟨same, hs⟩
    · exact sound
    · rw [(others s same).begun, (others s same).ended, (others s same).inFlight]
      exact h.known s other hs
  · intro s hs
    rw [tasks, List.getElem?_eq_none_iff, List.length_set, ← List.getElem?_eq_none_iff] at hs
    have same : s ≠ t := by
      rintro rfl
      rw [found] at hs
      cases hs
    rw [(others s same).begun, (others s same).ended, (others s same).inFlight]
    exact h.unknown s hs

theorem Sound.of_alike (h : e.Sound) (alike : Alike e e') : e'.Sound :=
  h.of_forall₂ alike.tasks alike.accounts fun _ _ alike _ _ _ sound => sound.of_alike alike

theorem sound_create (config : Config) (subscribers : List Subscriber) :
    (create config subscribers).Sound :=
  ⟨(fun _ _ found => nomatch found), fun _ _ => ⟨rfl, rfl, rfl⟩⟩

/-! ### One lemma for each kind of change -/

theorem Sound.register (h : e.Sound) (spec : ResolvedSpec) (status : TaskStatus)
    (room : 0 < spec.maxConcurrent) : (e.register spec status).Sound := by
  have accounts (t : TaskId) : SameAccounts t e (e.register spec status) :=
    ⟨List.countP_cons_of_neg Bool.false_ne_true, List.countP_cons_of_neg Bool.false_ne_true, rfl⟩
  have blank : ({ spec, status } : TaskRecord).Sound 0 0 0 :=
    ⟨room, Nat.zero_le _, rfl, Nat.le_refl _, (fun owed => nomatch owed),
      fun parked => absurd rfl parked⟩
  constructor
  · intro t task found
    rw [(accounts t).begun, (accounts t).ended, (accounts t).inFlight]
    rcases getElem?_register e spec status t with same | ⟨unknown, new⟩
    · exact h.known t task (same ▸ found)
    · obtain ⟨begun, ended, inFlight⟩ := h.unknown t unknown
      rw [begun, ended, inFlight, ← Option.some.inj (new.symm.trans found)]
      exact blank.of_alike (alike_newRecord e spec status)
  · intro t none
    rw [(accounts t).begun, (accounts t).ended, (accounts t).inFlight]
    rcases getElem?_register e spec status t with same | ⟨unknown, -⟩
    · exact h.unknown t (same ▸ none)
    · exact h.unknown t unknown

theorem Sound.drainPending (h : e.Sound) : e.drainPending.Sound :=
  h.of_forall₂ e.forall₂_drainPending (fun _ => .of_eq rfl rfl)
    fun _ _ forgotten _ _ _ sound => forgotten ▸ sound.forget

theorem Sound.stop (h : e.Sound) : ({ e with phase := .stopped }.finalize).Sound :=
  h.of_forall₂ e.forall₂_stop (fun _ => .of_eq rfl rfl)
    fun _ _ final _ _ _ sound => final ▸ sound.forget.finalize

theorem Sound.detach (h : e.Sound) (waiter : WaiterId) : (e.detach waiter).Sound :=
  h.of_forall₂ (e.forall₂_detach waiter) (fun _ => .of_eq rfl rfl)
    fun _ _ which _ _ _ sound => by
      rcases which with rfl | rfl
      · exact sound
      · exact sound.detach waiter

theorem Sound.beginRun {task : TaskRecord} (h : e.Sound) (known : e.tasks[t]? = some task)
    (room : task.isFull = false) (merged : Bool) (waiters : List WaiterId) :
    (e.beginRun t merged waiters).Sound := by
  have begun := begun_beginRun known merged waiters
  have ended (s : TaskId) : (e.beginRun t merged waiters).ended s = e.ended s := by
    rw [beginRun_eq known]
    exact List.countP_cons_of_neg Bool.false_ne_true
  refine h.of_set known (by rw [beginRun_eq known])
    (fun s other => ⟨?_, ended s, inFlight_beginRun_of_ne known merged waiters other⟩) ?_
  · rw [begun, if_neg other, Nat.add_zero]
  · rw [begun, if_pos rfl, ended, inFlight_beginRun known]
    exact (h.known t task known).begin room e.now

theorem Sound.note (h : e.Sound) {n : Note} (begins : ∀ t, n.begins t = false)
    (ends : ∀ t, n.ends t = false) : (e.note n).Sound :=
  h.of_forall₂ (R := Eq) (List.forall₂_same.mpr fun _ _ => rfl)
    (fun t => .note e (begins t) (ends t)) fun _ _ same _ _ _ sound => same ▸ sound

theorem Sound.request (h : e.Sound) (t : TaskId) (waiter : Option WaiterId) :
    (e.request t waiter).1.Sound := by
  have step := e.request_step t waiter
  generalize e.request t waiter = answer at step ⊢
  cases step with
  | refused err => exact h.note (fun _ => rfl) fun _ => rfl
  | skipped task known full =>
      refine Sound.note ?_ (fun _ => rfl) fun _ => rfl
      exact h.of_alike (aside_announce ..).alike
  | merged task known admits willing full overlap =>
      have folded : (e.updateTask t (·.fold waiter)).Sound := by
        refine h.of_set known (modify_eq_set_of_getElem? known _) (fun s _ => .of_eq rfl rfl) ?_
        exact (h.known t task known).fold full overlap waiter
      refine Sound.note ?_ (fun _ => rfl) fun _ => rfl
      exact folded.of_alike (aside_announce ..).alike
  | started task known admits willing room =>
      exact (h.beginRun known room false _).note (fun _ => rfl) fun _ => rfl

theorem Sound.requestWaiting (h : e.Sound) (t : TaskId) : (e.requestWaiting t).1.Sound := by
  rw [requestWaiting_fst]
  exact (h.of_alike (alike_drawSerial e t)).request t _

theorem Sound.deliver (h : e.Sound) (waiters : List WaiterId) (d : Delivery) :
    (e.deliver waiters d).Sound :=
  h.of_forall₂ (R := Eq) (List.forall₂_same.mpr fun _ _ => rfl) (fun _ => .of_eq rfl rfl)
    fun _ _ same _ _ _ sound => same ▸ sound

/-- A run in flight leaves a place that was taken, and that is free then. -/
theorem Sound.conclude {run : Run} {task : TaskRecord} (h : e.Sound) (mem : run ∈ e.runs)
    (known : e.tasks[run.id.task]? = some task) (outcome : Outcome) :
    (e.conclude run task outcome).Sound := by
  have fewer := inFlight_filter_lt mem
  have begun (s : TaskId) : (e.conclude run task outcome).begun s = e.begun s :=
    List.countP_cons_of_neg Bool.false_ne_true
  have ended : (e.conclude run task outcome).ended run.id.task = e.ended run.id.task + 1 :=
    List.countP_cons_of_pos (by simp [Note.ends])
  refine h.of_set known rfl (fun s other => ⟨begun s, ?_, ?_⟩) ?_
  · exact List.countP_cons_of_neg (by simpa [Note.ends] using Ne.symm other)
  · exact inFlight_filter_of_ne (Ne.symm other)
  · rw [begun, ended]
    exact (h.known _ task known).conclude fewer e.phase e.now outcome

/-- A run ends, and the one that is owed begins in its place. -/
theorem Sound.finish (h : e.Sound) (id : RunId) (outcome : Outcome) :
    (e.finish id outcome).Sound := by
  have step := e.finish_step id outcome
  generalize e.finish id outcome = after at step ⊢
  cases step with
  | unknown => exact h
  | last run task found known settled => exact h.conclude (mem_of_run? found).1 known outcome
  | closed run task found known owed closing =>
      exact (h.conclude (mem_of_run? found).1 known outcome).deliver _ _
  | again run task found known owed admits =>
      have mem := (mem_of_run? found).1
      have taken : 0 < e.inFlight run.id.task := Nat.zero_lt_of_lt (inFlight_filter_lt mem)
      have room := (h.known _ task known).isFull_conclude taken e.phase e.now outcome
      exact (h.conclude mem known outcome).beginRun (known_conclude known outcome) room _ _

theorem Sound.abandon (h : e.Sound) (id : RunId) : (e.abandon id).Sound := by
  unfold Engine.abandon
  cases found : e.run? id with
  | none => exact h
  | some run =>
      obtain ⟨mem, rfl⟩ := mem_of_run? found
      have removed : (e.removeRun run.id).Sound := by
        constructor
        · intro t task known
          have sound := h.known t task known
          exact { sound with present := Nat.le_trans (inFlight_filter_le _ _ t) sound.present }
        · intro t none
          obtain ⟨begun, ended, inFlight⟩ := h.unknown t none
          exact ⟨begun, ended, Nat.eq_zero_of_le_zero (inFlight ▸ inFlight_filter_le _ _ t)⟩
      exact removed.deliver _ _

theorem Sound.change {l : Licence} (change : Change l e e') (h : e.Sound) : e'.Sound := by
  cases change with
  | calm calm => exact h.of_alike calm.alike
  | register spec status accepted room => exact h.register spec status room
  | stop idle covers => exact h.stop
  | drain closing covers => exact h.drainPending
  | request t => exact h.request t none
  | requestWaiting t covers => exact h.requestWaiting t
  | detach w leaves => exact h.detach w
  | finish id outcome covers => exact h.finish id outcome
  | abandon id refuses covers => exact h.abandon id

/-! ## 4. All histories -/

/-- **Runs within capacity.**  Whatever happens to an engine, and in whatever order: a task has no
more runs than it has room for; the number it keeps is that of the runs that began without having
ended, so a run in flight always finds a place to give back; a run is owed only by a task that
merges and is full; and callers are parked only where a run is owed. -/
theorem runs_within_capacity (config : Config) (subscribers : List Subscriber) (moves : List Move)
    (admitted : (create config subscribers).admits moves = true) (t : TaskId) (task : TaskRecord)
    (known : ((create config subscribers).after moves).tasks[t]? = some task) :
    let e := (create config subscribers).after moves
    task.running ≤ task.spec.maxConcurrent ∧
    task.running + e.ended t = e.begun t ∧
    (∀ run ∈ e.runs, run.id.task = t → 0 < task.running) ∧
    (task.pending = true →
      task.spec.overlap = .merge ∧ task.running = task.spec.maxConcurrent) ∧
    (task.parked ≠ [] → task.pending = true) := by
  intro e
  have sound : e.Sound := keeps_after (fun _ _ _ => Sound.change) admitted
    (sound_create config subscribers)
  have record := sound.known t task known
  refine ⟨record.bounded, record.counted, ?_, record.owed, record.parked⟩
  intro run mem same
  subst same
  exact Nat.lt_of_lt_of_le (Nat.zero_lt_of_lt (inFlight_filter_lt mem)) record.present

/-- A task that folds requests, asked for two runs by callers that wait. -/
def foldedHistory : List Move :=
  [.add ((Spec.onDemand .trivial).withOverlap .merge), .start (.named "t"),
    .requestWaiting 0, .requestWaiting 0]

theorem runs_within_capacity_folded :
    (create {} []).admits foldedHistory = true ∧
    ∃ task, ((create {} []).after foldedHistory).tasks[0]? = some task ∧
      task.parked = [⟨0, 1⟩] ∧ task.pending = true ∧ task.running = task.spec.maxConcurrent := by
  have admitted : (create {} []).admits foldedHistory = true := by decide
  obtain ⟨task, known, parked⟩ : ∃ task,
      ((create {} []).after foldedHistory).tasks[0]? = some task ∧ task.parked = [⟨0, 1⟩] :=
    ⟨_, rfl, rfl⟩
  obtain ⟨-, -, -, owed, waits⟩ := runs_within_capacity {} [] foldedHistory admitted 0 task known
  have pending := waits (by simp [parked])
  exact ⟨admitted, task, known, parked, pending, (owed pending).2⟩

end Engine

end TaskEngine
