/-
  TaskEngine/Proofs/Registration.lean
  ===================================
  **Registration is all or nothing, and names find tasks.**

  A spec is looked at for reasons to refuse it, in a fixed order: a capacity of zero, a missing
  interval, a gate that is shut, a name that is taken.  The first one that applies is the answer and
  nothing has changed; if there is none, one task is added behind the others and announced once
  (`Registers`).

  Tasks are found by name in an index that is written beside the list of tasks.  The two agree at
  all times (`Indexed`): the index has one entry for every task with a name and none for the tasks
  without, and no name stands in it twice.  Nothing but a registration changes either of them
  (`Change.registry`).
-/
import TaskEngine.Proofs.Closing
import TaskEngine.Proofs.Growth

namespace TaskEngine

/-- A spec that resolves keeps its name and its schedule. -/
theorem Spec.resolve_eq_ok {spec : Spec} {config : Config} {resolved : ResolvedSpec}
    (resolves : spec.resolve config = .ok resolved) :
    resolved.name = spec.name ∧ resolved.schedule = spec.schedule := by
  unfold Spec.resolve at resolves
  split at resolves
  · cases resolves
  · split at resolves
    · cases resolves
    · cases resolves
      exact ⟨rfl, rfl⟩

namespace Engine

variable {e e' : Engine}

/-! ## 1. Reasons to refuse a spec -/

/-- The reasons for which a spec may be refused, in the order in which they are looked for. -/
def objections (spec : Spec) : List RegistrationError :=
  [.invalidCapacity, .invalidInterval, .closed, .duplicateName spec.name]

/-- Whether there is such a reason to refuse a spec now. -/
def objects (e : Engine) (spec : Spec) : RegistrationError → Bool
  | .invalidCapacity => spec.maxConcurrent = 0
  | .invalidInterval => spec.schedule.lacksInterval
  | .closed => e.isShut
  | .duplicateName name => name ≠ "" && e.tasks.any (·.name = name)

/-- The first reason to refuse a spec, if there is one. -/
def objection? (e : Engine) (spec : Spec) : Option RegistrationError :=
  (objections spec).find? (e.objects spec)

theorem initialStatus?_isSome (e : Engine) : e.initialStatus?.isSome = !e.isShut := by
  cases shut : e.isShut with
  | true => rw [initialStatus?_of_isShut shut]; rfl
  | false =>
      have opens : e.refusal? ≠ some .closed := by
        rw [← Bool.not_eq_true, isShut_iff] at shut
        exact shut
      cases phase : e.phase with
      | notStarted => simp [initialStatus?, phase]
      | running =>
          cases cancelled : e.isCancelled e.runToken with
          | true => simp [refusal?, phase, cancelled] at opens
          | false => simp [initialStatus?, isOpen, refusal?, phase, cancelled]
      | stopping => simp [refusal?, phase] at opens
      | stopped => simp [refusal?, phase] at opens

/-! ## 2. The index -/

/-- The name of a task. -/
def nameOf? (e : Engine) (t : TaskId) : Option String := (e.tasks[t]?).map (·.name)

/-- The index has an entry for every task with a name, no other, and no two for one name. -/
structure Indexed (e : Engine) : Prop where
  entries : ∀ name t, (name, t) ∈ e.index ↔ name ≠ "" ∧ e.nameOf? t = some name
  distinct : (e.index.map (·.1)).Nodup

theorem indexed_create (config : Config) (subscribers : List Subscriber) :
    (create config subscribers).Indexed :=
  ⟨fun _ _ => by simp [create, nameOf?], .nil⟩

theorem mem_iff_lookup {α β : Type} [BEq α] [LawfulBEq α] {entries : List (α × β)}
    (distinct : (entries.map (·.1)).Nodup) {a : α} {b : β} :
    entries.lookup a = some b ↔ (a, b) ∈ entries := by
  induction entries with
  | nil => simp
  | cons entry entries ih =>
      obtain ⟨c, d⟩ := entry
      obtain ⟨absent, distinct⟩ := List.nodup_cons.mp distinct
      rw [List.lookup_cons, List.mem_cons]
      by_cases same : a = c
      · subst same
        have elsewhere : (a, b) ∉ entries := fun mem => absent (List.mem_map.mpr ⟨_, mem, rfl⟩)
        simp [elsewhere, eq_comm]
      · simp [beq_false_of_ne same, same, ih distinct]

/-- A name finds the task that has it, and the empty name finds none. -/
theorem Indexed.lookup?_iff (h : e.Indexed) (name : String) (t : TaskId) :
    e.lookup? name = some t ↔ name ≠ "" ∧ e.nameOf? t = some name := by
  rw [← h.entries, lookup?]
  by_cases empty : name = ""
  · have unlisted : (name, t) ∉ e.index := fun mem => ((h.entries name t).mp mem).1 empty
    simp [empty ▸ unlisted, empty]
  · rw [if_neg empty]
    exact mem_iff_lookup h.distinct

/-- No two tasks have one name. -/
theorem Indexed.unique (h : e.Indexed) {name : String} (named : name ≠ "") {s t : TaskId}
    (first : e.nameOf? s = some name) (second : e.nameOf? t = some name) : s = t := by
  have found := (h.lookup?_iff name s).mpr ⟨named, first⟩
  exact Option.some.inj (found.symm.trans ((h.lookup?_iff name t).mpr ⟨named, second⟩))

/-- A name is looked up in vain exactly when it is empty or no task has it. -/
theorem Indexed.lookup?_isSome (h : e.Indexed) (name : String) :
    (e.lookup? name).isSome = (name ≠ "" && e.tasks.any (·.name = name)) := by
  rw [Bool.eq_iff_iff, Option.isSome_iff_exists]
  simp only [h.lookup?_iff, Bool.and_eq_true, decide_eq_true_eq, List.any_eq_true]
  constructor
  · rintro ⟨t, named, has⟩
    obtain ⟨task, known, same⟩ := Option.map_eq_some_iff.mp has
    exact ⟨named, task, List.mem_of_getElem? known, same⟩
  · rintro ⟨named, task, mem, same⟩
    obtain ⟨t, known⟩ := List.getElem?_of_mem mem
    exact ⟨t, named, Option.map_eq_some_iff.mpr ⟨task, known, same⟩⟩

theorem lookup?_eq_none_of_empty (e : Engine) : e.lookup? "" = none := if_pos rfl

/-! ## 3. What a registration does -/

/-- What the registration of a spec does: one task is added behind the others, with nothing done yet
and a schedule that is set up if the engine is running; its name finds it; it is announced once;
nothing else happens. -/
structure Registers (spec : Spec) (t : TaskId) (e e' : Engine) : Prop where
  position : t = e.tasks.length
  tasks : ∃ task, e'.tasks = e.tasks ++ [task] ∧ spec.resolve e.config = .ok task.spec ∧
    task.name = spec.name ∧
    task = { spec := task.spec
             status := if e.phase = .running then .idle else .notStarted
             loop := if e.phase = .running ∧ spec.schedule.isPeriodic = true then .fresh
               else .absent }
  found : spec.name ≠ "" → e'.lookup? spec.name = some t
  others : ∀ name, name ≠ spec.name → e'.lookup? name = e.lookup? name
  published : e'.published = e.published ++
    [{ kind := .taskAdded, task := some spec.name, reason := some spec.schedule.label }]
  rest : e' = { e with
    tasks := e'.tasks
    index := e'.index
    bus := e'.bus
    journal := e'.journal }

/-- What an attempt to register a spec comes to: it is refused for the first reason that applies,
or there is none and the task is registered. -/
inductive AddStep (e : Engine) (spec : Spec) : Engine × Except RegistrationError TaskId → Prop where
  | refused (err : RegistrationError) (first : e.objection? spec = some err) :
      AddStep e spec (e, .error err)
  | registered (resolved : ResolvedSpec) (status : TaskStatus)
      (resolves : spec.resolve e.config = .ok resolved)
      (accepts : e.initialStatus? = some status) (free : e.objection? spec = none)
      (fresh : e.lookup? resolved.name = none) :
      AddStep e spec (e.register resolved status, .ok e.tasks.length)

theorem Indexed.add_step (h : e.Indexed) (spec : Spec) : AddStep e spec (e.add spec) := by
  unfold add
  by_cases capacity : spec.maxConcurrent = 0
  · simp only [Spec.resolve, if_pos capacity]
    exact .refused _ (by simp [objection?, objections, objects, capacity])
  by_cases interval : spec.schedule.lacksInterval = true
  · simp only [Spec.resolve, if_neg capacity, if_pos interval]
    exact .refused _ (by simp [objection?, objections, objects, capacity, interval])
  cases resolves : spec.resolve e.config with
  | error err => simp [Spec.resolve, if_neg capacity, if_neg interval] at resolves
  | ok resolved =>
      have name : resolved.name = spec.name := (Spec.resolve_eq_ok resolves).1
      have taken := h.lookup?_isSome resolved.name
      have opens := initialStatus?_isSome e
      dsimp only
      cases accepts : e.initialStatus? with
      | none =>
          have shut : e.isShut = true := by simpa [accepts] using opens
          exact .refused _ (by simp [objection?, objections, objects, capacity, interval, shut])
      | some status =>
          have unshut : e.isShut = false := by simpa [accepts] using opens
          have objection : e.objection? spec =
              if (e.lookup? resolved.name).isSome then some (.duplicateName resolved.name)
              else none := by
            rw [taken, name]
            simp only [objection?, objections, objects, List.find?_cons, List.find?_nil, capacity,
              interval, unshut, decide_false]
            split <;> simp_all
          dsimp only
          split
          · rename_i known
            exact .refused _ (by rw [objection, if_pos known])
          · rename_i unknown
            exact .registered resolved status resolves accepts (by rw [objection, if_neg unknown])
              (Option.not_isSome_iff_eq_none.mp unknown)

/-! ## 4. Nothing else touches the registry -/

/-- The index, and the specs of the registered tasks. -/
def registry (e : Engine) : List (String × TaskId) × List ResolvedSpec :=
  (e.index, e.tasks.map (·.spec))

theorem nameOf?_eq (e : Engine) (t : TaskId) : e.nameOf? t = (e.registry.2[t]?).map (·.name) := by
  simp [nameOf?, registry, TaskRecord.name, Function.comp_def]

theorem Indexed.congr (h : e.Indexed) (same : e'.registry = e.registry) : e'.Indexed := by
  have index : e'.index = e.index := congrArg Prod.fst same
  constructor
  · intro name t
    rw [index, nameOf?_eq, same, ← nameOf?_eq]
    exact h.entries name t
  · rw [index]
    exact h.distinct

theorem registry_of_forall₂ {R : TaskRecord → TaskRecord → Prop} (index : e'.index = e.index)
    (tasks : List.Forall₂ R e.tasks e'.tasks) (keeps : ∀ old new, R old new → new.spec = old.spec) :
    e'.registry = e.registry := by
  rw [registry, index, map_eq_of_forall₂ tasks keeps, registry]

theorem registry_of_set {t : TaskId} {task new : TaskRecord} (known : e.tasks[t]? = some task)
    (index : e'.index = e.index) (tasks : e'.tasks = e.tasks.set t new)
    (keeps : new.spec = task.spec) : e'.registry = e.registry := by
  rw [registry, index, tasks, map_set_eq_map known keeps, registry]

theorem Calm.registry (calm : Calm e e') : e'.registry = e.registry := by
  refine registry_of_forall₂ ?_ calm.alike.tasks fun _ _ alike => alike.spec
  cases calm with
  | announce event task due => exact (aside_announce e event task).index
  | beginFlush s stopped => exact (aside_beginFlush e s).index
  | receive => exact (aside_receive e).index
  | work i => exact (aside_workLane e i).index
  | start token fresh => exact (aside_startPump _).index
  | _ => rfl

theorem registry_beginRun (e : Engine) (t : TaskId) (merged : Bool) (waiters : List WaiterId) :
    (e.beginRun t merged waiters).registry = e.registry := by
  cases known : e.tasks[t]? with
  | none => simp [beginRun, known]
  | some task =>
      rw [beginRun_eq known]
      exact registry_of_set known rfl rfl rfl

theorem registry_request (e : Engine) (t : TaskId) (waiter : Option WaiterId) :
    (e.request t waiter).1.registry = e.registry := by
  have step := e.request_step t waiter
  generalize e.request t waiter = answer at step ⊢
  cases step with
  | refused err => rfl
  | skipped task known full => rfl
  | merged task known admits willing full overlap =>
      exact registry_of_set known rfl (modify_eq_set_of_getElem? known _) rfl
  | started task known admits willing room => exact registry_beginRun e t false _

theorem registry_finish (e : Engine) (id : RunId) (outcome : Outcome) :
    (e.finish id outcome).registry = e.registry := by
  have concluded {run : Run} {task : TaskRecord} (known : e.tasks[run.id.task]? = some task) :
      (e.conclude run task outcome).registry = e.registry :=
    registry_of_set known rfl rfl (TaskRecord.conclude_spec ..)
  have step := e.finish_step id outcome
  generalize e.finish id outcome = after at step ⊢
  cases step with
  | unknown => rfl
  | last run task found known settled => exact concluded known
  | closed run task found known owed closing => exact concluded known
  | again run task found known owed admits =>
      exact (registry_beginRun _ _ _ _).trans (concluded known)

/-- A change is the registration of a task with a name that is free, or leaves the registry alone. -/
theorem Change.registry {l : Licence} (change : Change l e e') :
    e'.registry = e.registry ∨
    ∃ spec status, e.lookup? spec.name = none ∧ e' = e.register spec status := by
  cases change with
  | calm calm => exact .inl calm.registry
  | register spec status accepted room fresh => exact .inr ⟨spec, status, fresh, rfl⟩
  | stop idle covers =>
      exact .inl (registry_of_forall₂ rfl e.forall₂_stop fun _ _ final => final ▸ rfl)
  | drain closing covers =>
      exact .inl (registry_of_forall₂ rfl e.forall₂_drainPending fun _ _ forgotten => forgotten ▸ rfl)
  | request t => exact .inl (registry_request e t none)
  | requestWaiting t covers =>
      have drawn : (e.drawSerial t).registry = e.registry :=
        registry_of_forall₂ rfl (e.alike_drawSerial t).tasks fun _ _ alike => alike.spec
      exact .inl ((registry_request _ t _).trans drawn)
  | detach w leaves =>
      refine .inl (registry_of_forall₂ rfl (e.forall₂_detach w) fun _ _ which => ?_)
      rcases which with rfl | rfl <;> rfl
  | finish id outcome covers => exact .inl (registry_finish e id outcome)
  | abandon id refuses covers =>
      unfold Engine.abandon
      split <;> exact .inl rfl

theorem index_register (e : Engine) (spec : ResolvedSpec) (status : TaskStatus) :
    (e.register spec status).index =
      if spec.name = "" then e.index else e.index ++ [(spec.name, e.tasks.length)] := rfl

/-- The task that is registered has the position behind the others. -/
theorem nameOf?_register (e : Engine) (spec : ResolvedSpec) (status : TaskStatus) (t : TaskId) :
    (e.register spec status).nameOf? t =
      if t = e.tasks.length then some spec.name else e.nameOf? t := by
  have tasks : (e.register spec status).tasks = e.tasks ++ [e.newRecord spec status] := rfl
  have name : (e.newRecord spec status).name = spec.name :=
    congrArg ResolvedSpec.name (e.alike_newRecord spec status).spec
  unfold nameOf?
  by_cases last : t = e.tasks.length
  · rw [tasks, last, if_pos rfl, List.getElem?_concat_length, Option.map_some, name]
  · rw [if_neg last, tasks]
    rcases Nat.lt_or_gt_of_ne last with known | beyond
    · rw [List.getElem?_append_left known]
    · rw [List.getElem?_eq_none (by simpa using Nat.succ_le_of_lt beyond),
        List.getElem?_eq_none (Nat.le_of_lt beyond)]

/-- A free name gets one entry, for the task that is registered; no name gets none. -/
theorem Indexed.register (h : e.Indexed) {spec : ResolvedSpec} (fresh : e.lookup? spec.name = none)
    (status : TaskStatus) : (e.register spec status).Indexed := by
  have beyond : e.nameOf? e.tasks.length = none := by simp [nameOf?]
  by_cases unnamed : spec.name = ""
  · constructor
    · intro name t
      rw [index_register, if_pos unnamed, h.entries, nameOf?_register]
      by_cases last : t = e.tasks.length
      · simp only [last, beyond, unnamed, if_pos]
        grind
      · rw [if_neg last]
    · rw [index_register, if_pos unnamed]
      exact h.distinct
  · constructor
    · intro name t
      rw [index_register, if_neg unnamed, List.mem_append, h.entries, nameOf?_register]
      by_cases last : t = e.tasks.length
      · simp only [last, beyond, if_pos]
        grind
      · rw [if_neg last]
        simp [last]
    · rw [index_register, if_neg unnamed, List.map_append, List.nodup_append]
      refine ⟨h.distinct, by simp, ?_⟩
      rintro name listed _ mem rfl
      obtain rfl : name = spec.name := List.mem_singleton.mp mem
      obtain ⟨⟨_, t⟩, entry, rfl⟩ := List.mem_map.mp listed
      obtain ⟨named, has⟩ := (h.entries _ t).mp entry
      have found := (h.lookup?_iff _ t).mpr ⟨named, has⟩
      rw [fresh] at found
      cases found

theorem Indexed.change {l : Licence} (change : Change l e e') (h : e.Indexed) : e'.Indexed := by
  rcases change.registry with same | ⟨spec, status, fresh, rfl⟩
  · exact h.congr same
  · exact h.register fresh status

theorem indexed_after (config : Config) (subscribers : List Subscriber) {moves : List Move}
    (admitted : (create config subscribers).admits moves = true) :
    ((create config subscribers).after moves).Indexed :=
  keeps_after (fun _ _ _ => Indexed.change) admitted (indexed_create config subscribers)

/-- A name that finds a task finds it from then on. -/
theorem Indexed.stays (h : e'.Indexed) (indexed : e.Indexed) (grows : Grows e e') {name : String}
    {t : TaskId} (found : e.lookup? name = some t) : e'.lookup? name = some t := by
  obtain ⟨named, has⟩ := (indexed.lookup?_iff name t).mp found
  obtain ⟨old, known, rfl⟩ := Option.map_eq_some_iff.mp has
  obtain ⟨new, known', later⟩ := grows t old known
  refine (h.lookup?_iff _ t).mpr ⟨named, ?_⟩
  rw [nameOf?, known', Option.map_some, TaskRecord.name, later.spec, TaskRecord.name]

/-- The record of a task that is registered, in the phases in which tasks are accepted. -/
theorem newRecord_eq {status : TaskStatus} (accepts : e.initialStatus? = some status)
    (spec : ResolvedSpec) :
    e.newRecord spec status =
      { spec
        status := if e.phase = .running then .idle else .notStarted
        loop := if e.phase = .running ∧ spec.schedule.isPeriodic = true then .fresh
          else .absent } := by
  unfold initialStatus? at accepts
  cases phase : e.phase with
  | notStarted =>
      simp only [phase, Option.some.injEq] at accepts
      simp [newRecord, phase, accepts]
  | running =>
      have idle : e.isOpen = true ∧ .idle = status := by simpa [phase] using accepts
      cases periodic : spec.schedule.isPeriodic <;>
        simp [newRecord, phase, TaskRecord.ensureLoop, periodic, ← idle.2]
  | stopping => simp [phase] at accepts
  | stopped => simp [phase] at accepts

theorem Indexed.registers (h : e.Indexed) {spec : Spec} {resolved : ResolvedSpec}
    {status : TaskStatus} (resolves : spec.resolve e.config = .ok resolved)
    (accepts : e.initialStatus? = some status) (fresh : e.lookup? resolved.name = none) :
    Registers spec e.tasks.length e (e.register resolved status) := by
  obtain ⟨name, schedule⟩ := Spec.resolve_eq_ok resolves
  have indexed := h.register fresh status
  have record := newRecord_eq accepts resolved
  refine ⟨rfl, ⟨e.newRecord resolved status, rfl, ?_, ?_, ?_⟩, ?_, ?_, ?_, rfl⟩
  · rw [record]
    exact resolves
  · rw [record]
    exact name
  · rw [record, ← schedule]
  · intro named
    exact (indexed.lookup?_iff _ _).mpr ⟨named, by rw [nameOf?_register, if_pos rfl, name]⟩
  · intro other different
    have elsewhere (t : TaskId) :
        (e.register resolved status).nameOf? t = some other ↔ e.nameOf? t = some other := by
      rw [nameOf?_register]
      split
      · rename_i last
        have beyond : e.nameOf? t = none := by simp [nameOf?, last]
        simp [beyond, name, Ne.symm different]
      · rfl
    ext t
    rw [indexed.lookup?_iff, h.lookup?_iff, elsewhere]
  · rw [← name, ← schedule]
    exact published_of_announce _ _ _

/-! ## 5. All histories -/

/-- **Registration is all or nothing, and names find tasks.**  Whatever has happened, and whatever
spec is offered: the answer is the first reason to refuse it that applies, and then nothing has
changed; without such a reason one task is added and announced.  A name finds a task exactly when
the task has it; a name that is not empty is found exactly when one task alone has it; the empty
name finds nothing; and what a name finds it finds for ever after. -/
theorem registration_is_all_or_nothing (config : Config) (subscribers : List Subscriber)
    (before later : List Move)
    (admitted : (create config subscribers).admits (before ++ later) = true) :
    let e := (create config subscribers).after before
    let e' := (create config subscribers).after (before ++ later)
    (∀ spec err, (e.add spec).2 = .error err ↔ e.objection? spec = some err) ∧
    (∀ spec err, e.objection? spec = some err → (e.add spec).1 = e) ∧
    (∀ spec, e.objection? spec = none →
      ∃ t, (e.add spec).2 = .ok t ∧ Registers spec t e (e.add spec).1) ∧
    (∀ name t, e.lookup? name = some t ↔ name ≠ "" ∧ e.nameOf? t = some name) ∧
    (∀ name, name ≠ "" → ((e.lookup? name).isSome = true ↔ ∃! t, e.nameOf? t = some name)) ∧
    e.lookup? "" = none ∧
    (∀ name t, e.lookup? name = some t → e'.lookup? name = some t) := by
  intro e e'
  obtain ⟨admitted', rest⟩ := (admits_append ..).mp admitted
  have indexed : e.Indexed := indexed_after config subscribers admitted'
  have indexed' : e'.Indexed := indexed_after config subscribers admitted
  have grows : Grows e e' := by
    have grown := grows_after rest
    rwa [← after_append] at grown
  refine ⟨?_, ?_, ?_, indexed.lookup?_iff, ?_, e.lookup?_eq_none_of_empty,
    fun _ _ => indexed'.stays indexed grows⟩
  · intro spec err
    have step := indexed.add_step spec
    generalize e.add spec = answer at step ⊢
    cases step with
    | refused first applies => simp [applies]
    | registered resolved status resolves accepts free fresh => simp [free]
  · intro spec err first
    have step := indexed.add_step spec
    generalize e.add spec = answer at step ⊢
    cases step with
    | refused => rfl
    | registered resolved status resolves accepts free fresh => cases free.symm.trans first
  · intro spec free
    have step := indexed.add_step spec
    generalize e.add spec = answer at step ⊢
    cases step with
    | refused err first => cases free.symm.trans first
    | registered resolved status resolves accepts free fresh =>
        exact ⟨_, rfl, indexed.registers resolves accepts fresh⟩
  · intro name named
    rw [Option.isSome_iff_exists]
    constructor
    · rintro ⟨t, found⟩
      have has := ((indexed.lookup?_iff name t).mp found).2
      exact ⟨t, has, fun s same => indexed.unique named same has⟩
    · rintro ⟨t, has, -⟩
      exact ⟨t, (indexed.lookup?_iff name t).mpr ⟨named, has⟩⟩

/-- A spec that is named "t". -/
def takenSpec : Spec := (Spec.onDemand .trivial).withName "t"

/-- A task named "t" is registered before the start, and one without a name while the engine runs. -/
def registeredHistory : List Move :=
  [.add takenSpec, .start (.named "m"), .add (takenSpec.withName "")]

/-- Another task named "t" is refused and changes nothing; the name finds the first one, also once a
run of it is in flight. -/
theorem registration_is_all_or_nothing_taken :
    let e := (create {} []).after registeredHistory
    (create {} []).admits (registeredHistory ++ [.request 0]) = true ∧
    (e.add takenSpec).2 = .error (.duplicateName "t") ∧ (e.add takenSpec).1 = e ∧
    ((create {} []).after (registeredHistory ++ [.request 0])).lookup? "t" = some 0 := by
  intro e
  have admitted : (create {} []).admits (registeredHistory ++ [.request 0]) = true := by decide
  obtain ⟨answers, unchanged, -, -, -, -, stays⟩ :=
    registration_is_all_or_nothing {} [] registeredHistory [.request 0] admitted
  have taken : e.objection? takenSpec = some (.duplicateName "t") := by decide
  exact ⟨admitted, (answers takenSpec _).mpr taken, unchanged takenSpec _ taken,
    stays "t" 0 (by decide)⟩

end Engine

end TaskEngine
