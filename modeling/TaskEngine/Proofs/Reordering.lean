/-
  TaskEngine/Proofs/Reordering.lean
  =================================
  **Runs may end in any order.**

  When several runs of a task end with no request and no change at the gate in between, only the first
  end has to do with what is owed (`Housed.finish_finish_eq`), whichever run it belongs to.  So two ends
  commute (`Housed.finish_finish`), and by exchanging neighbours so do all of them
  (`Housed.agree_of_perm`).

  What they agree on depends on how closely one looks (`Regard`).  At one moment only the last error
  and the order of what is told and noted are left to the order of the ends (`Regard.close`); if time
  passes in between, the moments that the record keeps are, too (`Regard.distant`).
-/
import TaskEngine.Proofs.Registration
import TaskEngine.Proofs.Tallies
import TaskEngine.Proofs.Waiters

namespace TaskEngine

/-! ## 1. Records -/

namespace TaskRecord

variable (t : TaskRecord) (isOpen : Bool) (phase : Phase) (now : Instant)

/-- The record without its last error. -/
def unerring : TaskRecord := { t with lastError := none }

/-- The record without its last error, and with no more of the moments it keeps than whether there
are any. -/
def timeless : TaskRecord :=
  { t.unerring with
    lastStarted := t.lastStarted.map fun _ => .zero
    lastFinished := t.lastFinished.map fun _ => .zero
    lastSuccess := t.lastSuccess.map fun _ => .zero
    completedAt := .zero }

/-- A run of the task ends, and behind an open gate the owed one begins. -/
def handOver (outcome : Outcome) : TaskRecord :=
  if t.pending && isOpen then (t.conclude phase now outcome).begin now
  else t.conclude phase now outcome

/-- The callers that are turned away when a run ends, because the owed one does not begin. -/
def turnedAway : List WaiterId := if t.pending && !isOpen then t.parked else []

@[simp] theorem handOver_pending (outcome : Outcome) :
    (t.handOver isOpen phase now outcome).pending = false := by
  unfold handOver
  split <;> rfl

theorem turnedAway_handOver (outcome : Outcome) (later : Bool) :
    (t.handOver isOpen phase now outcome).turnedAway later = [] := by
  rw [turnedAway, handOver_pending]
  rfl

/-- What was owed is handed over once. -/
theorem handOver_handOver (first second : Outcome) :
    (t.handOver isOpen phase now first).handOver isOpen phase now second =
      (t.handOver isOpen phase now first).conclude phase now second := by
  rw [handOver, handOver_pending]
  rfl

/-- Only the counters, the last success and the last error depend on the outcome. -/
theorem conclude_eq (outcome : Outcome) : t.conclude phase now outcome = { t with
    running := t.running - 1
    pending := false
    parked := if t.pending then [] else t.parked
    status := if t.status.isClosing then t.status else statusIn (t.running - 1) phase
    successCount := t.successCount + if outcome.event == .runSucceeded then 1 else 0
    failCount := t.failCount + if outcome.isFailure then 1 else 0
    panicCount := t.panicCount + if outcome.event == .runPanicked then 1 else 0
    canceledCount := t.canceledCount + if outcome.isCancellation then 1 else 0
    lastFinished := some now
    lastSuccess := if outcome.event == .runSucceeded then some now else t.lastSuccess
    lastError := outcome.errorText?.or t.lastError
    completions := t.completions + 1
    completedAt := now } := by
  cases outcome <;> rfl

/-- A run that ends at another moment leaves the same behind but for that moment. -/
theorem timeless_conclude (outcome : Outcome) : (t.conclude phase now outcome).timeless =
    (t.timeless.conclude phase .zero outcome).timeless := by
  simp only [conclude_eq, timeless, unerring, Option.map_map, Function.comp_def, Option.map_some,
    apply_ite (Option.map fun _ => Instant.zero)]

theorem timeless_begin : (t.begin now).timeless = (t.timeless.begin .zero).timeless := by
  simp only [begin, timeless, unerring, Option.map_map, Function.comp_def, Option.map_some]

/-- Of two runs that end at one moment the one hands over as the other does. -/
theorem conclude_handOver (first second : Outcome) :
    ((t.handOver isOpen phase now first).conclude phase now second).unerring =
      ((t.handOver isOpen phase now second).conclude phase now first).unerring := by
  have latest (a b : Bool) (before : Option Instant) :
      (if b then some now else if a then some now else before) =
        if a then some now else if b then some now else before := by
    cases a <;> cases b <;> rfl
  unfold handOver
  split <;>
    · simp only [conclude_eq, begin, unerring]
      congr 1 <;> first | exact Nat.add_right_comm .. | exact latest ..

end TaskRecord

/-! ## 2. How closely states are compared -/

/-- What is looked at of a record, of a run in flight and of a moment, and which notes are read.  What
decides how runs end is looked at, so what is seen of the state afterwards follows from what was seen
before. -/
structure Regard where
  record : TaskRecord → TaskRecord
  run : Run → Run
  moment : Instant → Instant
  reads : Note → Bool
  settled : ∀ now, moment (moment now) = moment now
  pending : ∀ t, (record t).pending = t.pending
  parked : ∀ t, (record t).parked = t.parked
  runCount : ∀ t, (record t).runCount = t.runCount
  conclude : ∀ t phase now outcome, record (t.conclude phase now outcome) =
    record ((record t).conclude phase (moment now) outcome)
  begin : ∀ t now, record (t.begin now) = record ((record t).begin (moment now))
  id : ∀ r, (run r).id = r.id
  waiters : ∀ r, (run r).waiters = r.waiters

/-- The run, however far it has come. -/
def Run.unmoved (r : Run) : Run := { r with progress := .launched }

namespace Regard

/-- Everything is looked at but the last error. -/
def close : Regard where
  record := TaskRecord.unerring
  run r := r
  moment now := now
  reads _ := true
  settled _ := rfl
  pending _ := rfl
  parked _ := rfl
  runCount _ := rfl
  conclude _ _ _ outcome := by cases outcome <;> rfl
  begin _ _ := rfl
  id _ := rfl
  waiters _ := rfl

/-- Moments are not looked at, nor how far runs have come, and only notes about the beginnings and the
ends of runs are read. -/
def distant : Regard where
  record := TaskRecord.timeless
  run := Run.unmoved
  moment _ := .zero
  reads := Note.isOfRun
  settled _ := rfl
  pending _ := rfl
  parked _ := rfl
  runCount _ := rfl
  conclude := TaskRecord.timeless_conclude
  begin := TaskRecord.timeless_begin
  id _ := rfl
  waiters _ := rfl

variable (g : Regard)

/-- What is looked at of a journal. -/
def notes (journal : List Entry) : List Entry :=
  (journal.filter (g.reads ·.note)).map fun entry => { entry with time := g.moment entry.time }

theorem handOver (t : TaskRecord) (isOpen : Bool) (phase : Phase) (now : Instant)
    (outcome : Outcome) : g.record (t.handOver isOpen phase now outcome) =
      g.record ((g.record t).handOver isOpen phase (g.moment now) outcome) := by
  unfold TaskRecord.handOver
  rw [g.pending]
  split
  · rw [g.begin, g.conclude, g.begin ((g.record t).conclude ..), g.settled]
  · exact g.conclude ..

theorem map_filter (id : RunId) (runs : List Run) :
    (runs.filter (·.id != id)).map g.run = (runs.map g.run).filter (·.id != id) := by
  rw [List.filter_map, Function.comp_def]
  simp only [g.id]

theorem notes_perm {journal journal' : List Entry} (same : journal'.Perm journal) :
    (g.notes journal').Perm (g.notes journal) :=
  (same.filter _).map _

theorem notes_append (first second : List Entry) :
    g.notes (first ++ second) = g.notes first ++ g.notes second := by
  rw [notes, List.filter_append, List.map_append]
  rfl

/-- When something is noted is looked at no more closely than moments are. -/
theorem notes_at {now now' : Instant} (same : g.moment now' = g.moment now) (news : List Note) :
    g.notes (news.map (⟨now', ·⟩)) = g.notes (news.map (⟨now, ·⟩)) := by
  simp only [notes, List.filter_map, List.map_map, Function.comp_def, same]

theorem notes_eq_nil {journal : List Entry}
    (silent : ∀ entry ∈ journal, g.reads entry.note = false) : g.notes journal = [] := by
  have none := List.filter_eq_nil_iff.mpr fun entry mem => Bool.eq_false_iff.mp (silent entry mem)
  rw [notes, none, List.map_nil]

theorem notes_close (journal : List Entry) : close.notes journal = journal := by
  simp [notes, close]

end Regard

namespace Engine

variable {e e' : Engine} {t : TaskId} {g : Regard}

/-! ## 3. The end of a run, in full -/

/-- The run that begins when one of task `t` ends, if one is owed and the gate is open. -/
def heirs (e : Engine) (t : TaskId) (task : TaskRecord) : List Run :=
  if task.pending && e.isOpen then
    [{ id := ⟨t, task.runCount + 1⟩, merged := true, waiters := task.parked
       token := (e.cancellation.child e.runToken).1 }]
  else []

theorem heirs_handOver (e : Engine) (t : TaskId) (task : TaskRecord) (isOpen : Bool) (phase : Phase)
    (now : Instant) (outcome : Outcome) :
    e.heirs t (task.handOver isOpen phase now outcome) = [] := by
  rw [heirs, TaskRecord.handOver_pending]
  rfl

/-- The end of a run changes the tokens, its task, the runs, the answers and the journal. -/
theorem finish_eq {id : RunId} {run : Run} {task : TaskRecord} (found : e.run? id = some run)
    (known : e.tasks[id.task]? = some task) (outcome : Outcome) :
    e.finish id outcome = { e with
      cancellation := { e.cancellation with
        nextChild := e.cancellation.nextChild + (e.heirs id.task task).length }
      tasks := e.tasks.set id.task (task.handOver e.isOpen e.phase e.now outcome)
      runs := e.runs.filter (·.id != id) ++ e.heirs id.task task
      mail := (task.turnedAway e.isOpen).map (·, .answered (.error .closed)) ++
        (run.waiters.map (·, .answered (outcome.waitResult !e.isOpen)) ++ e.mail)
      journal := ((e.heirs id.task task).map (fun r => Note.began r.id r.merged) ++
        [Note.finished id outcome]).map (⟨e.now, ·⟩) ++ e.journal } := by
  obtain ⟨-, rfl⟩ := mem_of_run? found
  unfold finish
  simp only [found, known]
  cases owed : task.pending with
  | false =>
      simp [heirs, TaskRecord.handOver, TaskRecord.turnedAway, owed, conclude, removeRun, note,
        deliver]
  | true =>
      cases admits : e.isOpen with
      | false =>
          simp [heirs, TaskRecord.handOver, TaskRecord.turnedAway, owed, admits, settleOwed,
            conclude, removeRun, note, deliver]
      | true =>
          have begun := beginRun_eq (known_conclude known outcome) true task.parked
          simp only [settleOwed, Bool.not_true, if_true, Bool.false_eq_true, if_false, begun]
          simp [heirs, TaskRecord.handOver, TaskRecord.turnedAway, owed, admits,
            Cancellation.child, conclude, removeRun, note, deliver]

/-- The end of a run does not touch the others that are in flight. -/
theorem run?_finish {id other : RunId} {run : Run} (found : e.run? other = some run)
    (differs : other ≠ id) (outcome : Outcome) : (e.finish id outcome).run? other = some run := by
  cases ending : e.run? id with
  | none => simpa only [Engine.finish, ending] using found
  | some ended =>
      cases known : e.tasks[id.task]? with
      | none => simpa only [Engine.finish, ending, known] using found
      | some task =>
          have stays : (e.runs.filter (·.id != id)).find? (·.id == other) = some run := by
            rw [List.find?_filter, ← found, Engine.run?]
            congr 1
            funext r
            by_cases here : r.id = other
            · simp [here, differs]
            · simp [here]
          rw [finish_eq ending known, Engine.run?, List.find?_append, stays]
          rfl

/-- The run that begins has a number that no run in flight has. -/
theorem Housed.filter_heirs (housed : e.Housed) {id : RunId} {run : Run} {task : TaskRecord}
    (found : e.run? id = some run) (known : e.tasks[id.task]? = some task) :
    (e.heirs id.task task).filter (·.id != id) = e.heirs id.task task := by
  obtain ⟨mem, rfl⟩ := mem_of_run? found
  obtain ⟨task', known', counted⟩ := housed.counted run mem
  obtain rfl : task = task' := Option.some.inj (known.symm.trans known')
  rw [List.filter_eq_self]
  intro heir mem
  unfold heirs at mem
  split at mem
  · rw [List.mem_singleton.mp mem, bne_iff_ne]
    intro same
    have number : task.runCount + 1 = run.id.number := congrArg RunId.number same
    omega
  · cases mem

/-- Two runs of a task end one after the other: what is owed has to do with the first end only. -/
theorem Housed.finish_finish_eq (housed : e.Housed) {a b : RunId} {runA runB : Run}
    {task : TaskRecord} (own : b.task = a.task) (differs : b ≠ a) (foundA : e.run? a = some runA)
    (foundB : e.run? b = some runB) (known : e.tasks[a.task]? = some task) (x y : Outcome) :
    (e.finish a x).finish b y = { e with
      cancellation := { e.cancellation with
        nextChild := e.cancellation.nextChild + (e.heirs a.task task).length }
      tasks := e.tasks.set a.task
        ((task.handOver e.isOpen e.phase e.now x).conclude e.phase e.now y)
      runs := (e.runs.filter (·.id != a)).filter (·.id != b) ++ e.heirs a.task task
      mail := runB.waiters.map (·, .answered (y.waitResult !e.isOpen)) ++
        ((task.turnedAway e.isOpen).map (·, .answered (.error .closed)) ++
          (runA.waiters.map (·, .answered (x.waitResult !e.isOpen)) ++ e.mail))
      journal := ⟨e.now, .finished b y⟩ ::
        (((e.heirs a.task task).map (fun r => Note.began r.id r.merged) ++
          [Note.finished a x]).map (⟨e.now, ·⟩) ++ e.journal) } := by
  have first := finish_eq foundA known x
  have found := run?_finish foundB differs x
  have known' : (e.finish a x).tasks[b.task]? =
      some (task.handOver e.isOpen e.phase e.now x) := by
    rw [first, own]
    exact List.getElem?_set_self (List.getElem?_eq_some_iff.mp known).1
  have gate : (e.finish a x).isOpen = e.isOpen := by
    rw [first]
    rfl
  have phase : (e.finish a x).phase = e.phase := by simp only [first]
  have now : (e.finish a x).now = e.now := by simp only [first]
  have heirs := housed.filter_heirs foundB (own ▸ known)
  rw [own] at heirs
  -- the first end has settled what is owed, so nothing begins and nobody is turned away at the second
  rw [finish_eq found known' y, heirs_handOver, TaskRecord.turnedAway_handOver, gate, phase, now,
    TaskRecord.handOver_handOver, first, own]
  simp [List.filter_append, heirs]

/-! ## 4. States that agree -/

/-- As far as they are looked at, the two states are the same for task `t`, and what was told and
noted is the same but for the order. -/
structure Agree (g : Regard) (t : TaskId) (e e' : Engine) : Prop where
  now : g.moment e'.now = g.moment e.now
  phase : e'.phase = e.phase
  runToken : e'.runToken = e.runToken
  cancellation : e'.cancellation = e.cancellation
  task : (e'.tasks[t]?).map g.record = (e.tasks[t]?).map g.record
  others : ∀ s, s ≠ t → e'.tasks[s]? = e.tasks[s]?
  runs : e'.runs.map g.run = e.runs.map g.run
  mail : e'.mail.Perm e.mail
  journal : (g.notes e'.journal).Perm (g.notes e.journal)

theorem Agree.refl (e : Engine) : Agree g t e e :=
  ⟨rfl, rfl, rfl, rfl, rfl, fun _ _ => rfl, rfl, .refl _, .refl _⟩

theorem Agree.symm (h : Agree g t e e') : Agree g t e' e :=
  ⟨h.now.symm, h.phase.symm, h.runToken.symm, h.cancellation.symm, h.task.symm,
    fun s other => (h.others s other).symm, h.runs.symm, h.mail.symm, h.journal.symm⟩

theorem Agree.trans {e'' : Engine} (first : Agree g t e e') (second : Agree g t e' e'') :
    Agree g t e e'' :=
  ⟨second.now.trans first.now, second.phase.trans first.phase,
    second.runToken.trans first.runToken, second.cancellation.trans first.cancellation,
    second.task.trans first.task,
    fun s other => (second.others s other).trans (first.others s other),
    second.runs.trans first.runs, second.mail.trans first.mail, second.journal.trans first.journal⟩

/-- States that agree closely agree from afar. -/
theorem Agree.distant (h : Agree .close t e e') : Agree .distant t e e' where
  now := rfl
  phase := h.phase
  runToken := h.runToken
  cancellation := h.cancellation
  task := by
    have task := congrArg (Option.map TaskRecord.timeless) h.task
    rwa [Option.map_map, Option.map_map] at task
  others := h.others
  runs := by
    have runs := congrArg (List.map Run.unmoved) h.runs
    rwa [List.map_map, List.map_map] at runs
  mail := h.mail
  journal := by
    have journal := h.journal
    rw [Regard.notes_close, Regard.notes_close] at journal
    exact Regard.notes_perm _ journal

/-! ### The same run ends in both -/

theorem Agree.isOpen (h : Agree g t e e') : e'.isOpen = e.isOpen := by
  have refused : e'.refusal? = e.refusal? := by
    unfold refusal? isCancelled
    rw [h.phase, h.runToken, h.cancellation]
  rw [Engine.isOpen, Engine.isOpen, refused]

theorem Agree.run? (h : Agree g t e e') (id : RunId) :
    (e'.run? id).map g.run = (e.run? id).map g.run := by
  have shown (e : Engine) : (e.run? id).map g.run = (e.runs.map g.run).find? (·.id == id) := by
    rw [List.find?_map, Function.comp_def]
    simp only [g.id]
    rfl
  rw [shown, shown, h.runs]

section Ends

variable {task task' : TaskRecord} (h : Agree g t e e') (alike : g.record task' = g.record task)

include h alike

theorem Agree.heirs : e'.heirs t task' = e.heirs t task := by
  have pending : task'.pending = task.pending := by rw [← g.pending, alike, g.pending]
  have parked : task'.parked = task.parked := by rw [← g.parked, alike, g.parked]
  have runCount : task'.runCount = task.runCount := by rw [← g.runCount, alike, g.runCount]
  rw [Engine.heirs, Engine.heirs, pending, parked, runCount, h.isOpen, h.runToken, h.cancellation]

theorem Agree.turnedAway : task'.turnedAway e'.isOpen = task.turnedAway e.isOpen := by
  have pending : task'.pending = task.pending := by rw [← g.pending, alike, g.pending]
  have parked : task'.parked = task.parked := by rw [← g.parked, alike, g.parked]
  rw [TaskRecord.turnedAway, TaskRecord.turnedAway, pending, parked, h.isOpen]

theorem Agree.handOver (outcome : Outcome) :
    g.record (task'.handOver e'.isOpen e'.phase e'.now outcome) =
      g.record (task.handOver e.isOpen e.phase e.now outcome) := by
  rw [g.handOver, alike, h.isOpen, h.phase, h.now, ← g.handOver]

end Ends

/-- States that agree still do when a run of the task has ended in both. -/
theorem Agree.finish (h : Agree g t e e') {id : RunId} (own : id.task = t) (outcome : Outcome) :
    Agree g t (e.finish id outcome) (e'.finish id outcome) := by
  subst own
  have sameRun := h.run? id
  have sameTask := h.task
  cases found : e.run? id with
  | none =>
      -- the run is in flight in neither state, and its end changes neither
      have found' : e'.run? id = none := by simpa [found] using sameRun
      simpa only [Engine.finish, found, found'] using h
  | some run =>
      rw [found] at sameRun
      obtain ⟨run', found', alikeRun⟩ := Option.map_eq_some_iff.mp sameRun
      cases known : e.tasks[id.task]? with
      | none =>
          have known' : e'.tasks[id.task]? = none := by simpa [known] using sameTask
          simpa only [Engine.finish, found, found', known, known'] using h
      | some task =>
          rw [known] at sameTask
          obtain ⟨task', known', alike⟩ := Option.map_eq_some_iff.mp sameTask
          have waiters : run'.waiters = run.waiters := by
            rw [← g.waiters run', alikeRun, g.waiters]
          have inside := (List.getElem?_eq_some_iff.mp known).1
          have inside' := (List.getElem?_eq_some_iff.mp known').1
          rw [finish_eq found known, finish_eq found' known', h.heirs alike, h.turnedAway alike,
            waiters]
          constructor
          · exact h.now
          · exact h.phase
          · exact h.runToken
          · rw [h.cancellation]
          · simp only [List.getElem?_set_self inside, List.getElem?_set_self inside',
              Option.map_some, h.handOver alike]
          · intro s other
            simp only [List.getElem?_set_ne (Ne.symm other)]
            exact h.others s other
          · simp only [List.map_append, g.map_filter, h.runs]
          · rw [h.isOpen]
            exact (h.mail.append_left _).append_left _
          · rw [g.notes_append, g.notes_append, g.notes_at h.now]
            exact h.journal.append_left _

/-! ## 5. Ends exchanged -/

theorem perm_turned {α : Type} (first second third rest : List α) :
    (first ++ (second ++ (third ++ rest))).Perm (third ++ (second ++ (first ++ rest))) := by
  have front := List.perm_append_comm_assoc first second (third ++ rest)
  have back := (List.perm_append_comm_assoc first third rest).append_left second
  exact (front.trans back).trans (List.perm_append_comm_assoc second third (first ++ rest))

/-- The ends of two runs of a task commute. -/
theorem Housed.finish_finish (housed : e.Housed) {a b : RunId} (own : b.task = a.task)
    (differs : b ≠ a) (flyingA : (e.run? a).isSome = true) (flyingB : (e.run? b).isSome = true)
    (x y : Outcome) :
    Agree .close a.task ((e.finish a x).finish b y) ((e.finish b y).finish a x) := by
  obtain ⟨runA, foundA⟩ := Option.isSome_iff_exists.mp flyingA
  obtain ⟨runB, foundB⟩ := Option.isSome_iff_exists.mp flyingB
  obtain ⟨memA, rfl⟩ := mem_of_run? foundA
  obtain ⟨task, known, -⟩ := housed.counted runA memA
  have inside := (List.getElem?_eq_some_iff.mp known).1
  rw [housed.finish_finish_eq own differs foundA foundB known x y,
    housed.finish_finish_eq own.symm differs.symm foundB foundA (own ▸ known) y x, own]
  constructor <;> dsimp only
  · simp only [List.getElem?_set_self inside, Option.map_some]
    exact congrArg some (TaskRecord.conclude_handOver ..)
  · intro s other
    simp only [List.getElem?_set_ne (Ne.symm other)]
  · rw [List.filter_comm]
  · exact perm_turned ..
  · apply Regard.notes_perm
    simpa using perm_turned [_] (((e.heirs _ task).map fun r => Note.began r.id r.merged).map _)
      [_] e.journal

/-- Runs of task `t` in flight, each once, and how they are to end. -/
structure Batch (e : Engine) (t : TaskId) (ends : List (RunId × Outcome)) : Prop where
  distinct : (ends.map (·.1)).Nodup
  own : ∀ x ∈ ends, x.1.task = t
  flying : ∀ x ∈ ends, (e.run? x.1).isSome = true

/-- Runs end one after another. -/
def finishAll (e : Engine) (ends : List (RunId × Outcome)) : Engine :=
  ends.foldl (fun e x => e.finish x.1 x.2) e

variable {ends one other : List (RunId × Outcome)}

theorem Batch.perm (h : Batch e t one) (reordered : one.Perm other) : Batch e t other where
  distinct := ((reordered.map _).nodup_iff).mp h.distinct
  own x mem := h.own x (reordered.mem_iff.mpr mem)
  flying x mem := h.flying x (reordered.mem_iff.mpr mem)

/-- When one of them has ended, the others are still in flight. -/
theorem Batch.tail {x : RunId × Outcome} (h : Batch e t (x :: ends)) :
    Batch (e.finish x.1 x.2) t ends := by
  obtain ⟨new, distinct⟩ := List.nodup_cons.mp h.distinct
  refine ⟨distinct, fun y mem => h.own y (List.mem_cons_of_mem x mem), fun y mem => ?_⟩
  obtain ⟨run, found⟩ := Option.isSome_iff_exists.mp (h.flying y (List.mem_cons_of_mem x mem))
  have differs : y.1 ≠ x.1 := fun same => new (List.mem_map.mpr ⟨y, mem, same⟩)
  rw [run?_finish found differs]
  rfl

theorem Agree.finishAll (h : Agree g t e e') (own : ∀ x ∈ ends, x.1.task = t) :
    Agree g t (e.finishAll ends) (e'.finishAll ends) := by
  induction ends generalizing e e' with
  | nil => exact h
  | cons x ends ih =>
      exact ih (h.finish (own x List.mem_cons_self) x.2)
        fun y mem => own y (List.mem_cons_of_mem x mem)

/-- **All ends of a batch commute**: by induction on how the one order is made from the other, an
exchange of two neighbours at a time. -/
theorem Housed.agree_of_perm (housed : e.Housed) (batch : Batch e t one)
    (reordered : one.Perm other) : Agree .close t (e.finishAll one) (e.finishAll other) := by
  induction reordered generalizing e with
  | nil => exact .refl e
  | cons x _ ih => exact ih (housed.finish x.1 x.2) batch.tail
  | swap x y ends =>
      obtain ⟨new, -⟩ := List.nodup_cons.mp batch.distinct
      have differs : x.1 ≠ y.1 := fun same =>
        new (List.mem_map.mpr ⟨x, List.mem_cons_self, same⟩)
      have ownX := batch.own x (List.mem_cons_of_mem y List.mem_cons_self)
      have ownY := batch.own y List.mem_cons_self
      have exchanged := housed.finish_finish (ownX.trans ownY.symm) differs
        (batch.flying y List.mem_cons_self)
        (batch.flying x (List.mem_cons_of_mem y List.mem_cons_self)) y.2 x.2
      rw [ownY] at exchanged
      exact exchanged.finishAll fun z mem =>
        batch.own z (List.mem_cons_of_mem y (List.mem_cons_of_mem x mem))
  | trans first _ ih ih' => exact (ih housed batch).trans (ih' housed (batch.perm first))

/-! ## 6. What happens in between -/

/-- The run that ends with the move, and how. -/
def Move.finish? : Move → Option (RunId × Outcome)
  | .finish id outcome => some (id, outcome)
  | _ => none

/-- The runs that end with the moves, and how. -/
def endsIn (moves : List Move) : List (RunId × Outcome) := moves.filterMap (·.finish?)

/-- Whether the move asks for no run, ends none, leaves the gate alone and takes no caller away: time
passes, runs announce themselves and come further, the lanes are fed, callers note something. -/
def Move.isQuiet : Move → Bool
  | .clock _ | .announce .. | .progress .. | .receive | .work _ | .remark _ => true
  | .add _ | .start _ | .cancel _ | .request _ | .requestWaiting _ | .detach _ | .finish ..
  | .abandon _ | .schedule _ | .watch | .shutdown .. | .awaitShutdown _ => false

theorem Aside.agree (h : Aside e e') (t : TaskId) : Agree .distant t e e' where
  now := rfl
  phase := h.phase
  runToken := h.runToken
  cancellation := h.cancellation
  task := by rw [h.tasks]
  others s _ := by rw [h.tasks]
  runs := by rw [h.runs]
  mail := h.mail ▸ .refl _
  journal := by
    obtain ⟨entries, journal, remarks⟩ := h.journal
    have none : Regard.distant.notes entries = [] :=
      Regard.notes_eq_nil _ fun entry mem => Note.isOfRun_of_isRemark (remarks entry mem)
    rw [journal, Regard.notes_append, none]
    exact .refl _

theorem agree_of_quiet {m : Move} (quiet : m.isQuiet = true) (allowed : e.allows m = true)
    (t : TaskId) : Agree .distant t e (e.perform m) := by
  cases m with
  | clock now => exact ⟨rfl, rfl, rfl, rfl, rfl, fun _ _ => rfl, rfl, .refl _, .refl _⟩
  | announce id event => exact (aside_announce e event _).agree t
  | progress id progress =>
      refine ⟨rfl, rfl, rfl, rfl, rfl, fun _ _ => rfl, ?_, .refl _, .refl _⟩
      show (e.runs.map _).map Run.unmoved = e.runs.map Run.unmoved
      rw [List.map_map]
      refine List.map_congr_left fun r _ => ?_
      simp only [Function.comp_apply]
      split <;> rfl
  | receive => exact (aside_receive e).agree t
  | work i => exact (aside_workLane e i).agree t
  | remark n => exact (aside_note e (Note.isRemark_of_isOfCallers allowed)).agree t
  | _ => cases quiet

/-- From afar it makes no difference what happens quietly between the ends of runs. -/
theorem Agree.after (h : Agree .distant t e e') {moves : List Move}
    (admitted : e.admits moves = true)
    (quiet : ∀ m ∈ moves, m.finish?.isSome = true ∨ m.isQuiet = true)
    (own : ∀ x ∈ endsIn moves, x.1.task = t) :
    Agree .distant t (e.after moves) (e'.finishAll (endsIn moves)) := by
  induction moves generalizing e e' with
  | nil => exact h
  | cons m moves ih =>
      obtain ⟨allowed, rest⟩ := (admits_cons ..).mp admitted
      have quiet' : ∀ m ∈ moves, m.finish?.isSome = true ∨ m.isQuiet = true :=
        fun n mem => quiet n (List.mem_cons_of_mem m mem)
      cases ending : m.finish? with
      | none =>
          -- a quiet move changes the one state only, and nothing that is looked at
          have silent : m.isQuiet = true := by
            simpa [ending] using quiet m List.mem_cons_self
          have same : endsIn (m :: moves) = endsIn moves := List.filterMap_cons_none ending
          rw [same] at own ⊢
          exact ih ((agree_of_quiet silent allowed t).symm.trans h) rest quiet' own
      | some x =>
          have more : endsIn (m :: moves) = x :: endsIn moves := List.filterMap_cons_some ending
          rw [more] at own ⊢
          have step : e.perform m = e.finish x.1 x.2 := by
            cases m with
            | finish id outcome =>
                obtain rfl := Option.some.inj ending
                rfl
            | _ => cases ending
          rw [step] at rest
          rw [after_cons, step]
          exact ih (h.finish (own x List.mem_cons_self) x.2) rest quiet'
            fun y mem => own y (List.mem_cons_of_mem x mem)

theorem after_eq_finishAll {moves : List Move} (only : ∀ m ∈ moves, m.finish?.isSome = true) :
    e.after moves = e.finishAll (endsIn moves) := by
  induction moves generalizing e with
  | nil => rfl
  | cons m moves ih =>
      have rest := ih (e := e.perform m) fun n mem => only n (List.mem_cons_of_mem m mem)
      cases m with
      | finish id outcome => exact rest
      | _ => cases only _ List.mem_cons_self

/-! ## 7. All histories -/

/-- The state without what is left to the order of the ends. -/
def unordered (e : Engine) (t : TaskId) : Engine :=
  { e.updateTask t (·.unerring) with mail := [], journal := [] }

/-- What of a state the ends of runs have nothing to do with. -/
def surroundings (e : Engine) : Engine :=
  { e with cancellation := {}, tasks := [], runs := [], mail := [], journal := [] }

theorem surroundings_finish (e : Engine) (id : RunId) (outcome : Outcome) :
    (e.finish id outcome).surroundings = e.surroundings := by
  have step := e.finish_step id outcome
  generalize e.finish id outcome = after at step ⊢
  cases step with
  | unknown => rfl
  | last run task found known settled => rfl
  | closed run task found known owed closing => rfl
  | again run task found known owed admits =>
      rw [beginRun_eq (known_conclude known outcome)]
      rfl

theorem surroundings_finishAll (e : Engine) (ends : List (RunId × Outcome)) :
    (e.finishAll ends).surroundings = e.surroundings := by
  induction ends generalizing e with
  | nil => rfl
  | cons x ends ih => exact (ih _).trans (surroundings_finish e x.1 x.2)

theorem Agree.unordered (h : Agree .close t e e') (around : e'.surroundings = e.surroundings) :
    e'.unordered t = e.unordered t := by
  have tasks : e'.tasks.modify t (·.unerring) = e.tasks.modify t (·.unerring) := by
    apply List.ext_getElem?
    intro s
    by_cases here : s = t
    · subst here
      rw [List.getElem?_modify_eq, List.getElem?_modify_eq]
      exact h.task
    · simpa [List.getElem?_modify, Ne.symm here] using h.others s here
  have cancellation := h.cancellation
  have runs : e'.runs = e.runs := by
    simpa [Regard.close] using h.runs
  obtain ⟨⟩ := e
  obtain ⟨⟩ := e'
  simp_all [surroundings, Engine.unordered, updateTask]

/-- Nobody is told twice. -/
theorem Kept.nodup_mail {gone : WaiterId → Prop} (kept : Kept gone e) :
    (e.mail.map (·.1)).Nodup := by
  refine List.nodup_iff_count.mpr fun w => ?_
  have once := kept.once w
  unfold places told at once
  omega

theorem delivery?_of_perm (same : e'.mail.Perm e.mail) (once : (e.mail.map (·.1)).Nodup)
    (w : WaiterId) : e'.delivery? w = e.delivery? w := by
  have once' := ((same.map (·.1)).nodup_iff).mpr once
  refine Option.ext fun d => ?_
  rw [delivery?, delivery?, mem_iff_lookup once, mem_iff_lookup once', same.mem_iff]

/-- **Runs may end in any order.**  Whatever has happened to an engine: let runs of a task that are in
flight end one after another, in one order or in another, and let nothing happen in between that asks
for a run or touches the gate.  Then the record of the task is the same but for its last error and for
how late the moments are that it keeps; the same runs are in flight, the merged one among them with
its number and its callers; every waiting caller has the same answer; and the same runs have begun and
have ended in the same way.  If nothing at all happens in between, nothing differs but the last error
and the order of what was told and noted. -/
theorem runs_end_in_any_order (config : Config) (subscribers : List Subscriber)
    (before one other : List Move) (t : TaskId)
    (admitted : (create config subscribers).admits (before ++ one) = true)
    (admitted' : (create config subscribers).admits (before ++ other) = true)
    (quiet : ∀ m ∈ one ++ other, m.finish?.isSome = true ∨ m.isQuiet = true)
    (batch : Batch ((create config subscribers).after before) t (endsIn one))
    (reordered : (endsIn one).Perm (endsIn other)) :
    let e := (create config subscribers).after (before ++ one)
    let e' := (create config subscribers).after (before ++ other)
    (e'.tasks[t]?).map (·.timeless) = (e.tasks[t]?).map (·.timeless) ∧
    e'.runs.map (·.unmoved) = e.runs.map (·.unmoved) ∧
    (∀ w, e'.delivery? w = e.delivery? w) ∧
    ((e'.journal.map (·.note)).filter (·.isOfRun)).Perm
      ((e.journal.map (·.note)).filter (·.isOfRun)) ∧
    ((∀ m ∈ one ++ other, m.finish?.isSome = true) →
      e'.unordered t = e.unordered t ∧ e'.mail.Perm e.mail ∧ e'.journal.Perm e.journal) := by
  intro e e'
  obtain ⟨first, rest⟩ := (admits_append ..).mp admitted
  obtain ⟨-, rest'⟩ := (admits_append ..).mp admitted'
  let start := (create config subscribers).after before
  have is : e = start.after one := after_append ..
  have is' : e' = start.after other := after_append ..
  have housed : start.Housed := keeps_after (fun _ _ _ => Housed.change) first
    (housed_create config subscribers)
  have kept : Kept (fun _ => True) e := (kept_create _ config subscribers).after
    (housed_create config subscribers) admitted fun _ _ _ _ _ => trivial
  have exchanged := housed.agree_of_perm batch reordered
  have left : Agree .distant t e (start.finishAll (endsIn one)) :=
    is ▸ (Agree.refl start).after rest (fun m mem => quiet m (List.mem_append_left _ mem)) batch.own
  have right : Agree .distant t e' (start.finishAll (endsIn other)) :=
    is' ▸ (Agree.refl start).after rest' (fun m mem => quiet m (List.mem_append_right _ mem))
      (batch.perm reordered).own
  have agree := (left.trans exchanged.distant).trans right.symm
  refine ⟨agree.task, agree.runs, delivery?_of_perm agree.mail kept.nodup_mail, ?_, ?_⟩
  · have journal := agree.journal.map (·.note)
    simpa [Regard.notes, Regard.distant, List.filter_map, Function.comp_def] using journal
  · intro only
    have pure := after_eq_finishAll (e := start) fun m mem => only m (List.mem_append_left _ mem)
    have pure' := after_eq_finishAll (e := start) fun m mem => only m (List.mem_append_right _ mem)
    rw [is, is', pure, pure']
    refine ⟨exchanged.unordered ?_, exchanged.mail, ?_⟩
    · rw [surroundings_finishAll, surroundings_finishAll]
    · simpa only [Regard.notes_close] using exchanged.journal

/-- A task with two runs in flight that merges, asked for three runs by callers that wait. -/
def pairedHistory : List Move :=
  [.add (((Spec.onDemand .trivial).withMaxConcurrent 2).withOverlap .merge), .start (.named "t"),
    .requestWaiting 0, .requestWaiting 0, .requestWaiting 0]

/-- The two runs fail, the second a little after the first. -/
def firstThenSecond : List Move :=
  [.finish ⟨0, 1⟩ (.failed (.failed "x")), .clock ⟨5⟩, .finish ⟨0, 2⟩ (.failed (.failed "y"))]

def secondThenFirst : List Move :=
  [.clock ⟨3⟩, .finish ⟨0, 2⟩ (.failed (.failed "y")), .finish ⟨0, 1⟩ (.failed (.failed "x"))]

theorem runs_end_in_any_order_paired :
    (create {} []).admits (pairedHistory ++ firstThenSecond) = true ∧
    (create {} []).admits (pairedHistory ++ secondThenFirst) = true ∧
    Batch ((create {} []).after pairedHistory) 0 (endsIn firstThenSecond) ∧
    (((create {} []).after (pairedHistory ++ secondThenFirst)).tasks[0]?).map (·.timeless) =
      (((create {} []).after (pairedHistory ++ firstThenSecond)).tasks[0]?).map (·.timeless) ∧
    (((create {} []).after (pairedHistory ++ firstThenSecond)).runs.map fun r =>
      (r.id, r.merged, r.waiters)) = [(⟨0, 3⟩, true, [⟨0, 2⟩])] ∧
    (((create {} []).after (pairedHistory ++ firstThenSecond)).tasks[0]?).bind (·.lastError) =
      some "execution failed: y" ∧
    (((create {} []).after (pairedHistory ++ secondThenFirst)).tasks[0]?).bind (·.lastError) =
      some "execution failed: x" := by
  have admitted : (create {} []).admits (pairedHistory ++ firstThenSecond) = true := by decide
  have admitted' : (create {} []).admits (pairedHistory ++ secondThenFirst) = true := by decide
  have batch : Batch ((create {} []).after pairedHistory) 0 (endsIn firstThenSecond) :=
    ⟨by decide, by decide, by decide⟩
  have quiet : ∀ m ∈ firstThenSecond ++ secondThenFirst,
      m.finish?.isSome = true ∨ m.isQuiet = true := by
    simp [firstThenSecond, secondThenFirst, Move.finish?, Move.isQuiet]
  have alike := (runs_end_in_any_order {} [] pairedHistory firstThenSecond secondThenFirst 0
    admitted admitted' quiet batch (.swap _ _ _)).1
  exact ⟨admitted, admitted', batch, alike, by decide, by decide, by decide⟩

end Engine

end TaskEngine
