/-
  TaskEngine/Proofs/Beats.lean
  ============================
  **What schedules do, and what everything else leaves to them.**

  The notes about the schedule of a task are its beats (`Engine.beats`): its timer is armed, the tick
  is announced, the timer fires, and the request that follows is answered.  Seen from the schedule,
  whatever happens to an engine is one of three things (`unfolds_perform`): the schedule is left
  alone, and at most requests of others are answered (`Engine.Spares`); it is set up, when the engine
  is started or the task is registered (`Engine.SetsUp`); or it takes its turn, of which the steps
  say all that a schedule can do (`Engine.LoopStep`).

  So what those three keep, every history keeps (`schedule_invariant`), and no proof about schedules
  opens a turn again.
-/
import TaskEngine.Proofs.Announcements
import TaskEngine.Proofs.Notes

namespace TaskEngine

/-- What the notes say about a schedule. -/
inductive Beat where
  | armed (due : Instant)
  /-- The tick was announced. -/
  | announced
  /-- The timer fired. -/
  | ticked
  /-- A request by nobody who waits was answered. -/
  | answered (result : AdmissionResult)
deriving DecidableEq, Repr

def Beat.isAnswer : Beat → Bool
  | answered _ => true
  | armed _ | announced | ticked => false

/-- What a note says about the schedule of task `t`. -/
def Note.beat? (t : TaskId) : Note → Option Beat
  | .armed s due => if s = t then some (.armed due) else none
  | .published event task => if event.kind = .tickScheduled ∧ task = some t then some .announced else none
  | .ticked s => if s = t then some .ticked else none
  | .requested s none result => if s = t then some (.answered result) else none
  | .requested _ (some _) _ | .began .. | .finished .. | .forwarded _ | .called .. | .logged _
  | .traced .. => none

def Entry.beat? (t : TaskId) (entry : Entry) : Option (Instant × Beat) :=
  (entry.note.beat? t).map (entry.time, ·)

theorem Note.beat?_of_isOfManager {n : Note} (h : n.isOfManager = true) (t : TaskId) :
    n.beat? t = none := by
  cases n with
  | published event task =>
      have other := (Bool.and_eq_true_iff.mp h).2
      simp only [bne_iff_ne] at other
      simp [beat?, other]
  | forwarded event => rfl
  | _ => cases h

theorem Note.beat?_of_isOfCallers {n : Note} (h : n.isOfCallers = true) (t : TaskId) :
    n.beat? t = none := by
  cases n <;> first | rfl | cases h

theorem Note.beat?_of_isAboutRun {event : Event} (about : event.kind.isAboutRun = true)
    (task : Option TaskId) (t : TaskId) : (Note.published event task).beat? t = none := by
  have other : event.kind ≠ .tickScheduled := by
    intro same
    rw [same] at about
    cases about
  simp [beat?, other]

/-- Nothing has to do with the schedule but, perhaps, the request that it makes next; time goes on. -/
structure TaskRecord.SameLoop (now : Instant) (old new : TaskRecord) : Prop where
  spec : new.spec = old.spec
  loop : new.loop = old.loop
  nextRun : new.nextRun = old.nextRun ∨ old.loop.isAlive = false ∧ new.nextRun = none
  completedAt : new.completedAt = old.completedAt ∨ new.completedAt.ns ≤ now.ns

namespace TaskRecord

variable {now : Instant} {old new : TaskRecord}

theorem SameLoop.refl (now : Instant) (task : TaskRecord) : task.SameLoop now task :=
  ⟨rfl, rfl, .inl rfl, .inl rfl⟩

theorem SameLoop.trans {later : Instant} {last : TaskRecord} (first : old.SameLoop now new)
    (second : new.SameLoop later last) (onward : now.ns ≤ later.ns) : old.SameLoop later last := by
  refine ⟨second.spec.trans first.spec, second.loop.trans first.loop, ?_, ?_⟩
  · rcases second.nextRun with same | ⟨dead, cleared⟩
    · rw [same]
      exact first.nextRun
    · rw [first.loop] at dead
      exact .inr ⟨dead, cleared⟩
  · rcases second.completedAt with same | ended
    · rw [same]
      exact first.completedAt.imp_right fun le => Nat.le_trans le onward
    · exact .inr ended

theorem sameLoop_markStopping (now : Instant) (task : TaskRecord) :
    task.SameLoop now task.markStopping := by
  unfold markStopping
  split <;> exact ⟨rfl, rfl, .inl rfl, .inl rfl⟩

/-- The record with its timer armed, or with its schedule broken off. -/
def arm (task : TaskRecord) (now base : Instant) : Option Instant → TaskRecord
  | none => { task with loop := .ended }
  | some due => { task with nextRun := now.after? (due.since now), loop := .sleeping base due }

theorem sameLoop_conclude (phase : Phase) (now : Instant) (outcome : Outcome) (task : TaskRecord) :
    task.SameLoop now (task.conclude phase now outcome) := by
  refine ⟨conclude_spec .., ?_, .inl ?_, .inr (Nat.le_refl _)⟩ <;> rw [conclude, count_eq]

end TaskRecord

namespace Engine

variable {e e' : Engine} {s t : TaskId}

/-! ## 1. Beats -/

/-- What is noted about the schedule of task `t`, with the times, the newest first. -/
def beats (e : Engine) (t : TaskId) : List (Instant × Beat) := e.journal.filterMap (·.beat? t)

theorem beats_of_notes (silent : Notes (·.beat? t = none) e e') : e'.beats t = e.beats t := by
  obtain ⟨entries, journal, quiet⟩ := silent
  have none : entries.filterMap (·.beat? t) = [] :=
    List.filterMap_eq_nil_iff.mpr fun entry mem => by rw [Entry.beat?, quiet entry mem]; rfl
  rw [beats, journal, List.filterMap_append, none, List.nil_append, beats]

theorem beats_note (e : Engine) (n : Note) :
    (e.note n).beats t = ((n.beat? t).map (e.now, ·)).toList ++ e.beats t := by
  rw [beats, note, List.filterMap_cons]
  cases beat : n.beat? t <;> simp [Entry.beat?, beat, beats]

/-- The loop of a task; a task that is not known has none. -/
def loopOf (e : Engine) (t : TaskId) : Loop := ((e.tasks[t]?).map (·.loop)).getD .absent

theorem loopOf_of_known {task : TaskRecord} (known : e.tasks[t]? = some task) :
    e.loopOf t = task.loop := by
  rw [loopOf, known]
  rfl

theorem loopOf_of_unknown (unknown : e.tasks[t]? = none) : e.loopOf t = .absent := by
  rw [loopOf, unknown]
  rfl

/-! ## 2. Leaving a schedule alone -/

/-- The schedule of task `t` was left alone: at most requests were answered that it has not made. -/
structure Spares (t : TaskId) (e e' : Engine) : Prop where
  beats : ∃ answers, e'.beats t = answers ++ e.beats t ∧ ∀ b ∈ answers, b.2.isAnswer = true
  time : e.now.ns ≤ e'.now.ns
  phase : e'.phase = e.phase ∨ e'.isClosing = true
  known : ∀ old, e.tasks[t]? = some old → ∃ new, e'.tasks[t]? = some new ∧ old.SameLoop e'.now new
  unknown : e.tasks[t]? = none → e'.tasks[t]? = none

theorem Spares.refl (t : TaskId) (e : Engine) : Spares t e e :=
  ⟨⟨[], rfl, fun _ mem => absurd mem List.not_mem_nil⟩, Nat.le_refl _, .inl rfl,
    fun old known => ⟨old, known, .refl _ old⟩, id⟩

theorem Spares.trans {e'' : Engine} (first : Spares t e e') (second : Spares t e' e'') :
    Spares t e e'' := by
  obtain ⟨older, beats, quiet⟩ := first.beats
  obtain ⟨newer, beats', quiet'⟩ := second.beats
  refine ⟨⟨newer ++ older, by rw [beats', beats, List.append_assoc], ?_⟩,
    Nat.le_trans first.time second.time, ?_, ?_,
    fun unknown => second.unknown (first.unknown unknown)⟩
  · intro b mem
    rcases List.mem_append.mp mem with mem | mem
    · exact quiet' b mem
    · exact quiet b mem
  · rcases second.phase with same | closing
    · exact first.phase.imp same.trans fun closing => by rwa [isClosing, same]
    · exact .inr closing
  · intro old known
    obtain ⟨mid, known, same⟩ := first.known old known
    obtain ⟨new, known, same'⟩ := second.known mid known
    exact ⟨new, known, same.trans same' second.time⟩

theorem Spares.loopOf (spares : Spares t e e') : e'.loopOf t = e.loopOf t := by
  rcases known : e.tasks[t]? with _ | old
  · rw [loopOf_of_unknown known, loopOf_of_unknown (spares.unknown known)]
  · obtain ⟨new, known', same⟩ := spares.known old known
    rw [loopOf_of_known known, loopOf_of_known known', same.loop]

theorem spares_of_tasks (silent : e'.beats t = e.beats t) (time : e.now.ns ≤ e'.now.ns)
    (phase : e'.phase = e.phase ∨ e'.isClosing = true)
    (tasks : List.Forall₂ (TaskRecord.SameLoop e'.now) e.tasks e'.tasks) : Spares t e e' := by
  refine ⟨⟨[], silent, fun _ mem => absurd mem List.not_mem_nil⟩, time, phase, ?_, ?_⟩
  · exact fun old known => forall₂_getElem? tasks.flip known
  · intro unknown
    rw [List.getElem?_eq_none_iff] at unknown ⊢
    rwa [← tasks.length_eq]

/-- Nothing was noted about the schedule, and no task changed. -/
theorem spares_of_same (silent : e'.beats t = e.beats t) (now : e'.now = e.now)
    (phase : e'.phase = e.phase) (tasks : e'.tasks = e.tasks) : Spares t e e' := by
  apply spares_of_tasks silent (Nat.le_of_eq (congrArg _ now.symm)) (.inl phase)
  rw [tasks]
  exact List.forall₂_same.mpr fun task _ => .refl _ task

/-- One record changed in nothing that has to do with its schedule. -/
theorem spares_of_modify (silent : e'.beats t = e.beats t) (now : e'.now = e.now)
    (phase : e'.phase = e.phase) {f : TaskRecord → TaskRecord} (tasks : e'.tasks = e.tasks.modify s f)
    (same : ∀ task : TaskRecord, task.SameLoop e.now (f task)) : Spares t e e' := by
  apply spares_of_tasks silent (Nat.le_of_eq (congrArg _ now.symm)) (.inl phase)
  rw [tasks, now]
  exact forall₂_modify (.refl _) same _ _

theorem spares_note (e : Engine) {n : Note} (silent : n.beat? t = none) : Spares t e (e.note n) := by
  refine spares_of_same ?_ rfl rfl rfl
  rw [beats_note, silent]
  rfl

theorem spares_announce (e : Engine) (event : Event) (task : Option TaskId)
    (other : (event.kind == .tickScheduled) = false) : Spares t e (e.announce event task) := by
  have announced := spares_note { e with bus := e.bus.push event }
    (show (Note.published event task).beat? t = none by simp_all [Note.beat?])
  have pushed : Spares t e { e with bus := e.bus.push event } := spares_of_same rfl rfl rfl rfl
  exact pushed.trans announced

/-- A request is answered that is not one of the schedule. -/
theorem spares_requested (e : Engine) (waiter : Option WaiterId) (result : AdmissionResult) :
    Spares t e (e.note (.requested s waiter result)) := by
  refine ⟨⟨_, beats_note .., ?_⟩, Nat.le_refl _, .inl rfl, fun old known => ⟨old, known, .refl _ old⟩, id⟩
  intro b mem
  cases waiter with
  | some w => simp [Note.beat?] at mem
  | none =>
      simp only [Note.beat?, Option.mem_toList, Option.map_eq_some_iff] at mem
      obtain ⟨beat, is, rfl⟩ := mem
      split at is
      · cases is
        rfl
      · cases is

theorem spares_of_set {task new : TaskRecord} (silent : e'.beats t = e.beats t)
    (now : e'.now = e.now) (phase : e'.phase = e.phase) (found : e.tasks[s]? = some task)
    (tasks : e'.tasks = e.tasks.set s new) (same : task.SameLoop e.now new) : Spares t e e' := by
  have inside : s < e.tasks.length := (List.getElem?_eq_some_iff.mp found).1
  refine ⟨⟨[], silent, fun _ mem => absurd mem List.not_mem_nil⟩,
    Nat.le_of_eq (congrArg _ now.symm), .inl phase, ?_, ?_⟩
  · intro old known
    rw [tasks, now]
    by_cases here : s = t
    · subst here
      obtain rfl : task = old := Option.some.inj (found.symm.trans known)
      exact ⟨new, List.getElem?_set_self inside, same⟩
    · exact ⟨old, by rw [List.getElem?_set_ne here, known], .refl _ old⟩
  · intro unknown
    rw [tasks, List.getElem?_eq_none_iff, List.length_set]
    exact List.getElem?_eq_none_iff.mp unknown

/-! ### Requests and runs -/

theorem spares_beginRun (e : Engine) (s : TaskId) (merged : Bool) (waiters : List WaiterId) :
    Spares t e (e.beginRun s merged waiters) := by
  rcases known : e.tasks[s]? with _ | task
  · rw [beginRun, known]
    exact .refl t e
  · rw [beginRun_eq known]
    refine spares_of_set ?_ rfl rfl known rfl ⟨rfl, rfl, .inl rfl, .inl rfl⟩
    exact beats_of_notes (notes_cons rfl rfl)

theorem now_beginRun (e : Engine) (s : TaskId) (merged : Bool) (waiters : List WaiterId) :
    (e.beginRun s merged waiters).now = e.now := by
  unfold beginRun
  split <;> rfl

theorem now_request (e : Engine) (s : TaskId) (waiter : Option WaiterId) :
    (e.request s waiter).1.now = e.now := by
  have step := e.request_step s waiter
  generalize e.request s waiter = answer at step ⊢
  rcases step with _ | _ | _ | _
  · rfl
  · rfl
  · rfl
  · exact now_beginRun ..

theorem beats_request (e : Engine) (s t : TaskId) (waiter : Option WaiterId) :
    (e.request s waiter).1.beats t =
      (((Note.requested s waiter (e.request s waiter).2).beat? t).map (e.now, ·)).toList ++ e.beats t := by
  have step := e.request_step s waiter
  generalize e.request s waiter = answer at step ⊢
  cases step with
  | refused err => exact beats_note ..
  | skipped task known full =>
      rw [beats_note]
      exact congrArg _ (beats_of_notes (notes_cons rfl rfl))
  | merged task known admits willing full overlap =>
      rw [beats_note]
      exact congrArg _ (beats_of_notes (notes_cons rfl rfl))
  | started task known admits willing room =>
      rw [beats_note, now_beginRun]
      exact congrArg _ (beats_of_notes (notes_beginRun e s false _ fun _ => rfl))

theorem spares_request (e : Engine) (s : TaskId) (waiter : Option WaiterId) :
    Spares t e (e.request s waiter).1 := by
  have step := e.request_step s waiter
  generalize e.request s waiter = answer at step ⊢
  cases step with
  | refused err => exact spares_requested e waiter _
  | skipped task known full =>
      exact (spares_announce e _ _ rfl).trans (spares_requested _ waiter _)
  | merged task known admits willing full overlap =>
      have folded : Spares t e (e.updateTask s (·.fold waiter)) :=
        spares_of_modify rfl rfl rfl rfl fun _ => ⟨rfl, rfl, .inl rfl, .inl rfl⟩
      exact (folded.trans (spares_announce _ _ _ rfl)).trans (spares_requested _ waiter _)
  | started task known admits willing room =>
      exact (spares_beginRun e s false _).trans (spares_requested _ waiter _)

theorem spares_requestWaiting (e : Engine) (s : TaskId) : Spares t e (e.requestWaiting s).1 := by
  have drawn : Spares t e (e.drawSerial s) :=
    spares_of_modify rfl rfl rfl rfl fun _ => ⟨rfl, rfl, .inl rfl, .inl rfl⟩
  rw [requestWaiting_fst]
  exact drawn.trans (spares_request ..)

theorem spares_finish (e : Engine) (id : RunId) (outcome : Outcome) :
    Spares t e (e.finish id outcome) := by
  have concluded {run : Run} {task : TaskRecord} (known : e.tasks[run.id.task]? = some task) :
      Spares t e (e.conclude run task outcome) := by
    refine spares_of_set ?_ rfl rfl known rfl (task.sameLoop_conclude _ _ _)
    exact beats_of_notes (notes_cons rfl rfl)
  have step := e.finish_step id outcome
  generalize e.finish id outcome = after at step ⊢
  cases step with
  | unknown => exact .refl t e
  | last run task found known settled => exact concluded known
  | closed run task found known owed closing =>
      exact (concluded known).trans (spares_of_same rfl rfl rfl rfl)
  | again run task found known owed admits => exact (concluded known).trans (spares_beginRun ..)

theorem spares_abandon (e : Engine) (id : RunId) : Spares t e (e.abandon id) := by
  unfold abandon
  split
  · exact spares_of_same rfl rfl rfl rfl
  · exact .refl t e

/-! ### Lanes -/

theorem now_emit (e : Engine) (event : Event) : (e.emit event).now = e.now := by
  rw [emit_eq]

theorem now_receive (e : Engine) : e.receive.now = e.now := by
  have waits (e : Engine) : e.awaitWorkers.now = e.now := by
    unfold awaitWorkers
    split <;> rfl
  have step := e.receive_step
  generalize e.receive = after at step ⊢
  cases step with
  | nothing idle => rfl
  | passes event cursor receiving next goesOn => exact now_emit _ event
  | ends event cursor receiving next last => exact (waits _).trans (now_emit _ event)
  | awaits closing => exact waits e

theorem now_beginFlush (e : Engine) (s : Shutdown) : (e.beginFlush s).1.now = e.now := by
  unfold beginFlush
  split
  · rfl
  · rfl
  · exact forward_keeps (P := fun after => after.now = e.now)
      (fun e' event cursor _ same => (now_emit _ event).trans same) false _ rfl

/-- Managers and lanes note nothing about schedules. -/
theorem Manages.beats (manages : Manages e e') (t : TaskId) : e'.beats t = e.beats t :=
  beats_of_notes (manages.notes.mono fun _ own => Note.beat?_of_isOfManager own t)

theorem spares_receive (e : Engine) : Spares t e e.receive :=
  spares_of_same ((manages_receive e).beats t) (now_receive e) (aside_receive e).phase
    (aside_receive e).tasks

theorem spares_workLane (e : Engine) (i : Nat) : Spares t e (e.workLane i) := by
  refine spares_of_same ((manages_workLane e i).beats t) ?_ (aside_workLane e i).phase
    (aside_workLane e i).tasks
  rw [workLane_eq]

theorem spares_beginFlush (e : Engine) (s : Shutdown) : Spares t e (e.beginFlush s).1 :=
  spares_of_same ((manages_beginFlush e s).beats t) (now_beginFlush e s) (aside_beginFlush e s).phase
    (aside_beginFlush e s).tasks

/-! ### The end -/

theorem spares_beginStopping (e : Engine) : Spares t e e.beginStopping :=
  spares_of_tasks rfl (Nat.le_refl _) (.inr rfl)
    (forall₂_map (TaskRecord.sameLoop_markStopping _) _)

theorem spares_turnWatcher (e : Engine) : Spares t e e.turnWatcher := by
  have left : Spares t e { e with watching := false } := spares_of_same rfl rfl rfl rfl
  unfold turnWatcher
  dsimp only
  split
  · exact (left.trans (spares_beginStopping _)).trans (spares_announce _ _ none rfl)
  · exact left
  · exact left
  · exact left

/-- An engine comes to have stopped when no schedule is alive. -/
theorem spares_stop (idle : e.isIdle = true) : Spares t e ({ e with phase := .stopped }.finalize) := by
  have dead := ((isIdle_iff e).mp idle).2.2
  refine spares_of_tasks rfl (Nat.le_refl _) (.inr rfl) ?_
  show List.Forall₂ _ e.tasks ((e.tasks.map TaskRecord.forget).map TaskRecord.finalize)
  rw [List.map_map, List.forall₂_map_right_iff, List.forall₂_same]
  exact fun task mem => ⟨rfl, rfl, .inr ⟨dead task mem, rfl⟩, .inl rfl⟩

theorem spares_turnShutdown (e : Engine) (s : Shutdown) : Spares t e (e.turnShutdown s).1 := by
  rcases stage : s.stage with _ | _ | _
  · simp only [turnShutdown, stage]
    split
    · rename_i idle
      have stopped := (spares_stop (t := t) idle).trans
        (spares_announce _ { kind := .allStoppedWithin } none rfl)
      exact stopped.trans (spares_beginFlush _ s)
    · split
      · have drained : Spares t e e.drainPending := spares_of_tasks rfl (Nat.le_refl _) (.inl rfl)
          (forall₂_map (fun _ => ⟨rfl, rfl, .inl rfl, .inl rfl⟩) _)
        exact drained.trans (spares_announce _ _ none rfl)
      · exact .refl t e
  · simp only [turnShutdown, stage]
    exact .refl t e
  · simp only [turnShutdown, stage]
    exact .refl t e

theorem spares_shutdown (still : e.Still) (bound : Bound) (grace : Duration) :
    Spares t e (e.shutdown bound grace).1 := by
  rcases phase : e.phase
  · simp only [shutdown, phase]
    exact (spares_stop (still.fresh phase)).trans (spares_beginFlush _ _)
  · simp only [shutdown, phase]
    exact ((spares_beginStopping e).trans (spares_announce _ _ none rfl)).trans
      (spares_turnShutdown _ _)
  · simp only [shutdown, phase]
    exact spares_turnShutdown e _
  · simp only [shutdown, phase]
    exact .refl t e

/-! ## 3. The turn of a schedule -/

/-- Whether a request of a schedule is answered as it should be: a run was started, the request was
folded into the owed run, or it was turned away at capacity. -/
def isServed : AdmissionResult → Bool
  | .ok _ | .error .skipped => true
  | .error _ => false

/-- Unless the run token is cancelled, a schedule that is alive finds the gate and its task open. -/
def Welcomes (e : Engine) (t : TaskId) : Prop :=
  e.isCancelled e.runToken = false → ∀ task, e.tasks[t]? = some task → task.loop.isAlive = true →
    e.refusal? = none ∧ task.refusal? = none

/-- The first tick of a schedule that begins now. -/
def firstTick? (e : Engine) (every : Every) : Option Instant :=
  if every.startImmediately then some e.now else e.now.after? every.interval

/-- What the schedule of task `t` can do in one step. -/
inductive LoopStep (t : TaskId) (e : Engine) : Engine → Prop where
  | begins (task : TaskRecord) (every : Every) (known : e.tasks[t]? = some task)
      (periodic : task.spec.schedule = .every every) (fresh : task.loop = .fresh) :
      LoopStep t e (e.armLoop t task e.now (e.firstTick? every))
  /-- A run has ended that it has listened for. -/
  | goesOn (task : TaskRecord) (every : Every) (base : Instant) (seen : Nat)
      (known : e.tasks[t]? = some task) (periodic : task.spec.schedule = .every every)
      (listens : task.loop = .listening base seen) (heard : task.completions ≠ seen) :
      LoopStep t e (e.armLoop t task base (task.completedAt.after? every.interval))
  | ticks (task : TaskRecord) (every : Every) (base due : Instant)
      (known : e.tasks[t]? = some task) (periodic : task.spec.schedule = .every every)
      (sleeps : task.loop = .sleeping base due) (isDue : due.isDue e.now = true)
      (admits : e.refusal? = none) (willing : task.refusal? = none) :
      LoopStep t e (e.tick t task every base)
  | ends (task : TaskRecord) (known : e.tasks[t]? = some task)
      (waits : task.loop.isAlive = true ∧ task.loop ≠ .fresh)
      (cancelled : e.isCancelled e.runToken = true) : LoopStep t e (e.endLoop t)

abbrev LoopSteps (t : TaskId) : Engine → Engine → Prop := Relation.ReflTransGen (LoopStep t)

theorem known_updateTask {task : TaskRecord} (known : e.tasks[t]? = some task)
    (f : TaskRecord → TaskRecord) : (e.updateTask t f).tasks[t]? = some (f task) := by
  rw [updateTask, List.getElem?_modify_eq, known]
  rfl

theorem known_endLoop {task : TaskRecord} (known : e.tasks[t]? = some task) :
    (e.endLoop t).tasks[t]? = some { task with nextRun := none, loop := .ended }.markStopping :=
  known_updateTask known _

theorem loopOf_endLoop {task : TaskRecord} (known : e.tasks[t]? = some task) :
    (e.endLoop t).loopOf t = .ended := by
  rw [loopOf_of_known (known_endLoop known)]
  exact (TaskRecord.sameLoop_markStopping e.now _).loop

/-! ### Arming -/

section Arming

variable (e) (s t : TaskId) (task : TaskRecord) (base : Instant) (due? : Option Instant)

theorem now_armLoop : (e.armLoop s task base due?).now = e.now := by
  cases due? <;> rfl

theorem tasks_armLoop :
    (e.armLoop s task base due?).tasks = e.tasks.modify s (·.arm e.now base due?) := by
  cases due? <;> rfl

theorem refusal?_armLoop : (e.armLoop s task base due?).refusal? = e.refusal? := by
  cases due? <;> rfl

theorem isCancelled_armLoop (token : Token) :
    (e.armLoop s task base due?).isCancelled token = e.isCancelled token := by
  cases due? <;> rfl

theorem runToken_armLoop : (e.armLoop s task base due?).runToken = e.runToken := by
  cases due? <;> rfl

/-- The timer is armed, and the tick announced. -/
theorem beats_armLoop_some (due : Instant) : (e.armLoop t task base (some due)).beats t =
    (e.now, .announced) :: (e.now, .armed due) :: e.beats t := by
  simp [beats, armLoop, publishAbout, announce, note, updateTask, Entry.beat?, Note.beat?,
    Event.withDelay]

end Arming

theorem known_armLoop {task : TaskRecord} (known : e.tasks[t]? = some task) (named : TaskRecord)
    (base : Instant) (due? : Option Instant) :
    (e.armLoop t named base due?).tasks[t]? = some (task.arm e.now base due?) := by
  rw [tasks_armLoop, List.getElem?_modify_eq, known]
  rfl

/-! ### Asking -/

/-- The schedule of task `t` has ticked, and its request has been answered. -/
def afterTick (e : Engine) (t : TaskId) : Engine := ((e.note (.ticked t)).request t none).1

theorem now_afterTick (e : Engine) (t : TaskId) : (e.afterTick t).now = e.now := now_request ..

theorem beats_afterTick (e : Engine) (t : TaskId) : (e.afterTick t).beats t =
    (e.now, .answered ((e.note (.ticked t)).request t none).2) :: (e.now, .ticked) :: e.beats t := by
  rw [afterTick, beats_request, beats_note]
  simp [Note.beat?, note]

theorem known_afterTick {task : TaskRecord} (known : e.tasks[t]? = some task) :
    ∃ asked, (e.afterTick t).tasks[t]? = some asked ∧ task.SameLoop e.now asked := by
  obtain ⟨asked, known, same⟩ := (spares_request (t := t) (e.note (.ticked t)) t none).known task known
  rw [now_request] at same
  exact ⟨asked, known, same⟩

theorem isServed_request {task : TaskRecord} (known : e.tasks[t]? = some task)
    (admits : e.refusal? = none) (willing : task.refusal? = none) (waiter : Option WaiterId) :
    isServed (e.request t waiter).2 = true := by
  simp only [request, consider, admits, known, willing, place]
  split
  · split <;> rfl
  · rfl

theorem tick_fixedRate {task : TaskRecord} {every : Every} (rate : every.tick = .fixedRate)
    (base : Instant) : e.tick t task every base =
      (e.afterTick t).armLoop t task base (nextAligned? base every.interval e.now) := by
  rw [tick, rate]
  rfl

theorem tick_fixedDelay {task : TaskRecord} {every : Every} (delay : every.tick = .fixedDelay)
    (known : e.tasks[t]? = some task) (admits : e.refusal? = none) (willing : task.refusal? = none)
    (base : Instant) : e.tick t task every base =
      (e.afterTick t).updateTask t fun r => { r with loop := .listening base task.completions } := by
  have served := isServed_request (e := e.note (.ticked t)) known admits willing none
  rw [tick, delay, afterTick]
  generalize (e.note (.ticked t)).request t none = answer at served ⊢
  obtain ⟨after, result⟩ := answer
  rcases result with err | admission
  · cases err <;> first | rfl | cases served
  · rfl

/-! ### All that a turn does -/

theorem Welcomes.armLoop {task : TaskRecord} (welcomes : e.Welcomes t)
    (known : e.tasks[t]? = some task) (alive : task.loop.isAlive = true) (base : Instant)
    (due? : Option Instant) : (e.armLoop t task base due?).Welcomes t := by
  intro going new found alive'
  rw [isCancelled_armLoop, runToken_armLoop] at going
  obtain rfl : task.arm e.now base due? = new :=
    Option.some.inj ((known_armLoop known task base due?).symm.trans found)
  obtain ⟨admits, willing⟩ := welcomes going task known alive
  refine ⟨(refusal?_armLoop ..).trans admits, ?_⟩
  cases due? <;> exact willing

theorem loopSteps_passTick {task : TaskRecord} {every : Every} (welcomes : e.Welcomes t)
    (known : e.tasks[t]? = some task) (periodic : task.spec.schedule = .every every) :
    LoopSteps t e (e.passTick t every) := by
  unfold passTick
  rw [known]
  dsimp only
  split
  · rename_i base due sleeps
    have alive : task.loop.isAlive = true := by rw [sleeps]; rfl
    split
    · rename_i cancelled
      exact .single (.ends task known ⟨alive, by rw [sleeps]; exact nofun⟩ cancelled)
    · rename_i going
      split
      · rename_i isDue
        obtain ⟨admits, willing⟩ := welcomes (Bool.eq_false_iff.mpr going) task known alive
        exact .single (.ticks task every base due known periodic sleeps isDue admits willing)
      · exact .refl
  · exact .refl

/-- A schedule that has armed its timer ticks in the same turn, if the tick is due already. -/
theorem loopSteps_armLoop {task : TaskRecord} {every : Every} {base : Instant}
    {due? : Option Instant} (welcomes : e.Welcomes t) (known : e.tasks[t]? = some task)
    (periodic : task.spec.schedule = .every every) (alive : task.loop.isAlive = true)
    (arms : LoopStep t e (e.armLoop t task base due?)) :
    LoopSteps t e ((e.armLoop t task base due?).passTick t every) := by
  have periodic' : (task.arm e.now base due?).spec.schedule = .every every := by
    cases due? <;> exact periodic
  have passes := loopSteps_passTick (welcomes.armLoop known alive base due?)
    (known_armLoop known task base due?) periodic'
  exact passes.head arms

theorem loopSteps_turnLoop (welcomes : e.Welcomes t) : LoopSteps t e (e.turnLoop t) := by
  unfold turnLoop
  split
  · exact .refl
  · rename_i task known
    split
    · rename_i every periodic fresh
      exact loopSteps_armLoop welcomes known periodic (by rw [fresh]; rfl)
        (.begins task every known periodic fresh)
    · rename_i every base due periodic sleeps
      exact loopSteps_passTick welcomes known periodic
    · rename_i every base seen periodic listens
      have alive : task.loop.isAlive = true := by rw [listens]; rfl
      split
      · rename_i cancelled
        exact .single (.ends task known ⟨alive, by rw [listens]; exact nofun⟩ cancelled)
      · split
        · exact .refl
        · rename_i heard
          exact loopSteps_armLoop welcomes known periodic alive
            (.goesOn task every base seen known periodic listens heard)
    · exact .refl

/-! ### The schedules of other tasks -/

/-- Another record changed, in whatever way. -/
theorem spares_elsewhere (other : s ≠ t) (silent : e'.beats t = e.beats t) (now : e'.now = e.now)
    (phase : e'.phase = e.phase) {f : TaskRecord → TaskRecord} (tasks : e'.tasks = e.tasks.modify s f) :
    Spares t e e' := by
  refine ⟨⟨[], silent, fun _ mem => absurd mem List.not_mem_nil⟩,
    Nat.le_of_eq (congrArg _ now.symm), .inl phase, ?_, ?_⟩
  · intro old known
    exact ⟨old, by rw [tasks, List.getElem?_modify_ne f _ other, known], .refl _ old⟩
  · intro unknown
    rw [tasks, List.getElem?_modify_ne f _ other, unknown]

theorem spares_armLoop (other : s ≠ t) (e : Engine) (task : TaskRecord) (base : Instant)
    (due? : Option Instant) : Spares t e (e.armLoop s task base due?) := by
  cases due? with
  | none => exact spares_elsewhere other rfl rfl rfl rfl
  | some due =>
      refine spares_elsewhere other ?_ rfl rfl (tasks_armLoop e s task base (some due))
      simp [beats, armLoop, publishAbout, announce, note, updateTask, Entry.beat?, Note.beat?, other]

theorem LoopStep.spares (other : s ≠ t) (step : LoopStep s e e') : Spares t e e' := by
  cases step with
  | begins task every known periodic fresh => exact spares_armLoop other ..
  | goesOn task every base seen known periodic listens heard => exact spares_armLoop other ..
  | ticks task every base due known periodic sleeps isDue admits willing =>
      have asked : Spares t e (e.afterTick s) :=
        (spares_note e (show (Note.ticked s).beat? t = none from if_neg other)).trans
          (spares_request _ s none)
      rcases tick : every.tick with _ | _
      · rw [tick_fixedDelay tick known admits willing]
        exact asked.trans (spares_elsewhere other rfl rfl rfl rfl)
      · rw [tick_fixedRate tick]
        exact asked.trans (spares_armLoop other ..)
  | ends task known waits cancelled => exact spares_elsewhere other rfl rfl rfl rfl

theorem LoopSteps.spares (other : s ≠ t) (steps : LoopSteps s e e') : Spares t e e' := by
  induction steps with
  | refl => exact .refl t e
  | tail _ step ih => exact ih.trans (step.spares other)

/-! ## 4. Setting a schedule up -/

/-- The schedule of task `t` may be set up: the engine is started, or task `t` is registered. -/
inductive SetsUp (t : TaskId) (e e' : Engine) : Prop where
  | starts (silent : e'.beats t = e.beats t) (now : e'.now = e.now) (fresh : e.phase = .notStarted)
      (running : e'.phase = .running)
      (tasks : e'.tasks = e.tasks.map fun task => task.activate.ensureLoop)
  | registers (spec : ResolvedSpec) (status : TaskStatus) (silent : e'.beats t = e.beats t)
      (now : e'.now = e.now) (accepted : e.initialStatus? = some status) (phase : e'.phase = e.phase)
      (here : t = e.tasks.length) (tasks : e'.tasks = e.tasks ++ [e.newRecord spec status])

theorem setsUp_start (fresh : e.phase = .notStarted) (t : TaskId) (token : Token) :
    SetsUp t e (e.start token).1 := by
  have pumped := aside_startPump { e with
    phase := .running
    runToken := (e.cancellation.child token).1
    cancellation := (e.cancellation.child token).2
    watching := true }
  have now (e : Engine) : e.startPump.now = e.now := by
    unfold startPump
    split <;> rfl
  refine .starts ((manages_start e token).beats t) ?_ fresh ?_ ?_
  · simp only [start, fresh]
    exact now _
  · simp only [start, fresh]
    exact pumped.phase
  · simp only [start, fresh]
    exact congrArg _ pumped.tasks

theorem unfolds_register (t : TaskId) (spec : ResolvedSpec) {status : TaskStatus}
    (accepted : e.initialStatus? = some status) :
    Spares t e (e.register spec status) ∨ SetsUp t e (e.register spec status) := by
  have silent : (e.register spec status).beats t = e.beats t :=
    beats_of_notes (notes_cons rfl (by simp [Note.beat?]))
  by_cases here : t = e.tasks.length
  · exact .inr (.registers spec status silent rfl accepted rfl here rfl)
  · left
    refine ⟨⟨[], silent, fun _ mem => absurd mem List.not_mem_nil⟩, Nat.le_refl _, .inl rfl, ?_, ?_⟩
    · intro old known
      rcases getElem?_register e spec status t with same | ⟨unknown, -⟩
      · exact ⟨old, same.trans known, .refl _ old⟩
      · cases unknown.symm.trans known
    · intro unknown
      have outside : e.tasks.length < t :=
        Nat.lt_of_le_of_ne (List.getElem?_eq_none_iff.mp unknown) (Ne.symm here)
      show (e.tasks ++ [e.newRecord spec status])[t]? = none
      rw [List.getElem?_eq_none_iff, List.length_append]
      exact outside

theorem unfolds_add (t : TaskId) (spec : Spec) :
    Spares t e (e.add spec).1 ∨ SetsUp t e (e.add spec).1 := by
  unfold add
  split
  · exact .inl (.refl t e)
  · split
    · exact .inl (.refl t e)
    · rename_i status accepted
      split
      · exact .inl (.refl t e)
      · exact unfolds_register t _ accepted

/-! ## 5. All histories -/

/-- What holds of every engine that came about from a new one, as far as schedules rest on it. -/
structure Orderly (e : Engine) : Prop where
  still : e.Still
  follows : ∀ task ∈ e.tasks, e.Rules task
  watched : e.Watched
  cancelled : e.phase = .stopping → e.isCancelled e.runToken = true

theorem orderly_create (config : Config) (subscribers : List Subscriber) :
    (create config subscribers).Orderly :=
  ⟨still_create .., fun _ mem => absurd mem List.not_mem_nil, watched_create config subscribers,
    nofun⟩

theorem Orderly.perform {m : Move} (orderly : e.Orderly) (allowed : e.allows m = true) :
    (e.perform m).Orderly := by
  have turn := turn_perform orderly.watched allowed
  refine ⟨orderly.still.perform allowed,
    (heeds_perform orderly.still orderly.follows allowed).follows, orderly.watched.turn turn, ?_⟩
  intro stopping
  generalize e.perform m = e' at turn stopping ⊢
  have stays (phase : e'.phase = e.phase) (runToken : e'.runToken = e.runToken) :
      e'.isCancelled e'.runToken = true := by
    rw [runToken]
    exact turn.isCancelled (orderly.cancelled (phase ▸ stopping))
  cases turn with
  | stays _ phase runToken watching cancelled heralds => exact stays phase runToken
  | cancels token => exact stays rfl rfl
  | starts token fresh phase runToken watching cancelled heralds =>
      rw [phase] at stopping
      cases stopping
  | closes _ running phase runToken cancelled heralds =>
      have mem : e'.runToken ∈ e'.cancellation.cancelled := by
        rw [runToken, cancelled]
        exact List.mem_cons_self
      exact List.any_eq_true.mpr ⟨_, mem, Token.isWithin_refl _⟩
  | stops _ due halts =>
      rw [halts.phase] at stopping
      cases stopping

theorem Orderly.after {moves : List Move} (orderly : e.Orderly) (admitted : e.admits moves = true) :
    (e.after moves).Orderly :=
  invariant_after (fun _ _ allowed orderly => orderly.perform allowed) admitted orderly

theorem Orderly.welcomes (orderly : e.Orderly) (t : TaskId) : e.Welcomes t := by
  intro going task known alive
  have mem := List.mem_of_getElem? known
  have none_alive (idle : e.isIdle = true) : False := by
    have dead := ((isIdle_iff e).mp idle).2.2 task mem
    rw [alive] at dead
    cases dead
  cases phase : e.phase with
  | notStarted => exact (none_alive (orderly.still.fresh phase)).elim
  | running =>
      refine ⟨by simp [refusal?, phase, going], ?_⟩
      rcases (orderly.follows task mem).status with same | ⟨-, cancelled, -⟩
      · rw [phase, TaskRecord.statusIn] at same
        rw [TaskRecord.refusal?, same]
        by_cases busy : 0 < task.running
        · rw [if_pos busy]
        · rw [if_neg busy]
      · rw [going] at cancelled
        cases cancelled
  | stopping =>
      rw [orderly.cancelled phase] at going
      cases going
  | stopped => exact (none_alive (orderly.still.settled phase).idle).elim

/-- Whatever else happens to an engine, the schedule of a task is left alone or set up. -/
theorem unfolds_perform_of_ne {m : Move} (t : TaskId) (orderly : e.Orderly)
    (allowed : e.allows m = true) (other : m ≠ .schedule t) :
    Spares t e (e.perform m) ∨ SetsUp t e (e.perform m) := by
  cases m with
  | clock now =>
      have onward : e.now.ns ≤ now.ns := of_decide_eq_true allowed
      exact .inl (spares_of_tasks rfl onward (.inl rfl)
        (List.forall₂_same.mpr fun task _ => .refl _ task))
  | add spec => exact unfolds_add t spec
  | start token =>
      cases phase : e.phase with
      | notStarted => exact .inr (setsUp_start phase t token)
      | _ =>
          left
          simp only [perform, start, phase]
          exact .refl t e
  | cancel token => exact .inl (spares_of_same rfl rfl rfl rfl)
  | request s => exact .inl (spares_request e s none)
  | requestWaiting s => exact .inl (spares_requestWaiting e s)
  | detach waiter =>
      exact .inl (spares_of_modify rfl rfl rfl rfl fun _ => ⟨rfl, rfl, .inl rfl, .inl rfl⟩)
  | announce id event =>
      obtain ⟨-, about⟩ := Bool.and_eq_true_iff.mp allowed
      have published : Spares t e (e.note (.published event (some id.task))) :=
        spares_note e (Note.beat?_of_isAboutRun about _ t)
      exact .inl (published.trans (spares_of_same rfl rfl rfl rfl))
  | progress id progress => exact .inl (spares_of_same rfl rfl rfl rfl)
  | finish id outcome => exact .inl (spares_finish e id outcome)
  | abandon id => exact .inl (spares_abandon e id)
  | schedule s =>
      have own : s ≠ t := fun same => other (congrArg Move.schedule same)
      exact .inl ((loopSteps_turnLoop (orderly.welcomes s)).spares own)
  | watch => exact .inl (spares_turnWatcher e)
  | shutdown bound grace => exact .inl (spares_shutdown orderly.still bound grace)
  | awaitShutdown s => exact .inl (spares_turnShutdown e s)
  | receive => exact .inl (spares_receive e)
  | work i => exact .inl (spares_workLane e i)
  | remark note => exact .inl (spares_note e (Note.beat?_of_isOfCallers allowed t))

/-- **What happens to a schedule.**  Whatever happens to an engine, the schedule of a task is left
alone, it is set up, or it takes its turn. -/
theorem unfolds_perform {m : Move} (t : TaskId) (orderly : e.Orderly) (allowed : e.allows m = true) :
    Spares t e (e.perform m) ∨ SetsUp t e (e.perform m) ∨ LoopSteps t e (e.perform m) := by
  by_cases own : m = .schedule t
  · subst own
    exact .inr (.inr (loopSteps_turnLoop (orderly.welcomes t)))
  · exact (unfolds_perform_of_ne t orderly allowed own).imp_right .inl

/-- What is kept when the schedule of a task is left alone, when it is set up and when it takes a
step, every history keeps. -/
theorem schedule_invariant {P : Engine → Prop} (t : TaskId)
    (spares : ∀ e e', Spares t e e' → Heeds e e' → P e → P e')
    (setsUp : ∀ e e', SetsUp t e e' → P e → P e') (step : ∀ e e', LoopStep t e e' → P e → P e')
    {moves : List Move} (orderly : e.Orderly) (admitted : e.admits moves = true) (here : P e) :
    P (e.after moves) := by
  have both : (e.after moves).Orderly ∧ P (e.after moves) := by
    refine invariant_after (P := fun e => e.Orderly ∧ P e) ?_ admitted ⟨orderly, here⟩
    rintro e m allowed ⟨orderly, here⟩
    refine ⟨orderly.perform allowed, ?_⟩
    rcases unfolds_perform t orderly allowed with left | sets | steps
    · exact spares _ _ left (heeds_perform orderly.still orderly.follows allowed) here
    · exact setsUp _ _ sets here
    · exact steps.head_induction_on (motive := fun e _ => P e → P _) id
        (fun first _ ih here => ih (step _ _ first here)) here
  exact both.2

end Engine

end TaskEngine
