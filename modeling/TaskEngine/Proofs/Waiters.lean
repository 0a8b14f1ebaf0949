/-
  TaskEngine/Proofs/Waiters.lean
  ==============================
  **Every waiting caller is told once, and told the truth.**

  What a move may tell a waiting caller is a short list (`Answers`): how the run ended that it was
  aboard, or that the engine is closed, if it is parked when a run ends behind a closed gate or when
  a shutdown drains the tasks.  How a caller comes aboard a run is a shorter one (`Boards`): with its
  own request, or with the owed run that it was folded into.  Every answer and every berth goes back
  to such a move, because none is there at the beginning.

  `waiting_callers_told_once` puts this together with the accounts of places.
-/
import TaskEngine.Proofs.Capacity
import TaskEngine.Proofs.Places

namespace TaskEngine

namespace Engine

variable {e e' : Engine} {w : WaiterId}

/-! ## 1. What a move does for a waiting caller -/

def Move.isShutdown : Move → Bool
  | .shutdown .. | .awaitShutdown _ => true
  | _ => false

/-- What a move tells a waiting caller. -/
inductive Answers (e : Engine) : Move → WaiterId → Delivery → Prop where
  | ended {id : RunId} {outcome : Outcome} {run : Run} {w : WaiterId}
      (found : e.run? id = some run) (aboard : w ∈ run.waiters) :
      Answers e (.finish id outcome) w (.answered (outcome.waitResult !e.isOpen))
  /-- It was parked when a run of its task ended, and the gate was closed. -/
  | closed {id : RunId} {outcome : Outcome} {task : TaskRecord} {w : WaiterId}
      (same : id.task = w.task) (known : e.tasks[w.task]? = some task) (parked : w ∈ task.parked)
      (closing : e.isOpen = false) :
      Answers e (.finish id outcome) w (.answered (.error .closed))
  /-- It was parked when a shutdown drained the tasks. -/
  | drained {m : Move} {task : TaskRecord} {w : WaiterId} (shuts : m.isShutdown = true)
      (known : e.tasks[w.task]? = some task) (parked : w ∈ task.parked) :
      Answers e m w (.answered (.error .closed))
  /-- The run that it was aboard is gone without having ended. -/
  | dropped {id : RunId} {run : Run} {w : WaiterId} (found : e.run? id = some run)
      (aboard : w ∈ run.waiters) : Answers e (.abandon id) w .dropped

/-- How a waiting caller comes aboard a run. -/
inductive Boards (e : Engine) : Move → WaiterId → RunId → Prop where
  | started {t : TaskId} {task : TaskRecord} (known : e.tasks[t]? = some task) :
      Boards e (.requestWaiting t) (e.nextWaiter t) ⟨t, task.runCount + 1⟩
  /-- It was folded into the owed run, which begins when another one ends. -/
  | owed {id : RunId} {outcome : Outcome} {task : TaskRecord} {w : WaiterId}
      (known : e.tasks[id.task]? = some task) (parked : w ∈ task.parked) (admits : e.isOpen = true) :
      Boards e (.finish id outcome) w ⟨id.task, task.runCount + 1⟩

/-- What a move does for waiting callers, as a licence. -/
def licence (e : Engine) (m : Move) : Licence where
  leaves w := m = .detach w
  told := Answers e m
  boards := Boards e m

theorem Alike.covers {l : Licence} (h : Alike e e') : Covers l e e' := by
  refine ⟨fun _ _ mem => .inl (h.mail ▸ mem), fun run mem w hw => .inl ?_⟩
  have mem : run.berth ∈ e.runs.map (·.berth) := h.runs ▸ List.mem_map_of_mem mem
  obtain ⟨old, memOld, berth⟩ := List.mem_map.mp mem
  obtain ⟨sameId, sameWaiters⟩ := Prod.mk.inj berth
  exact ⟨old, memOld, sameId, sameWaiters ▸ hw⟩

theorem covers_note {l : Licence} (n : Note) : Covers l e (e.note n) := .of_eq rfl rfl

theorem covers_beginRun {l : Licence} {t : TaskId} {task : TaskRecord}
    (known : e.tasks[t]? = some task) (merged : Bool) {waiters : List WaiterId}
    (boards : ∀ w ∈ waiters, l.boards w ⟨t, task.runCount + 1⟩) :
    Covers l e (e.beginRun t merged waiters) := by
  rw [beginRun_eq known]
  refine ⟨fun _ _ mem => .inl mem, ?_⟩
  intro run mem w hw
  rcases List.mem_append.mp mem with mem | mem
  · exact .inl ⟨run, mem, rfl, hw⟩
  · obtain rfl := List.mem_singleton.mp mem
    exact .inr (boards w hw)

theorem covers_deliver {l : Licence} {waiters : List WaiterId} {d : Delivery}
    (told : ∀ w ∈ waiters, l.told w d) : Covers l e (e.deliver waiters d) := by
  refine ⟨?_, fun run mem w hw => .inl ⟨run, mem, rfl, hw⟩⟩
  intro w answer mem
  rcases List.mem_append.mp mem with mem | mem
  · obtain ⟨v, hv, same⟩ := List.mem_map.mp mem
    obtain ⟨rfl, rfl⟩ := Prod.mk.inj same
    exact .inr (told v hv)
  · exact .inl mem

theorem covers_request {l : Licence} (t : TaskId) {waiter : Option WaiterId}
    (boards : ∀ task, e.tasks[t]? = some task →
      ∀ w ∈ waiter.toList, l.boards w ⟨t, task.runCount + 1⟩) :
    Covers l e (e.request t waiter).1 := by
  have step := e.request_step t waiter
  generalize e.request t waiter = answer at step ⊢
  cases step with
  | refused err => exact covers_note _
  | skipped task known full => exact .of_eq rfl rfl
  | merged task known admits willing full overlap => exact .of_eq rfl rfl
  | started task known admits willing room =>
      exact (covers_beginRun known false (boards task known)).trans (covers_note _)

theorem covers_requestWaiting (e : Engine) (t : TaskId) :
    Covers (licence e (.requestWaiting t)) e (e.requestWaiting t).1 := by
  have drawn := alike_drawSerial e t
  rw [requestWaiting_fst]
  refine drawn.covers.trans (covers_request t ?_)
  intro new found w mem
  obtain ⟨task, known, alike⟩ := forall₂_getElem? drawn.tasks found
  rw [List.mem_singleton.mp mem, alike.runCount]
  exact .started known

theorem covers_removeRun {l : Licence} (id : RunId) : Covers l e (e.removeRun id) :=
  ⟨fun _ _ mem => .inl mem, fun run mem _ hw => .inl ⟨run, List.mem_of_mem_filter mem, rfl, hw⟩⟩

theorem covers_finish (housed : e.Housed) (id : RunId) (outcome : Outcome) :
    Covers (licence e (.finish id outcome)) e (e.finish id outcome) := by
  have concluded {run : Run} (task : TaskRecord) (found : e.run? id = some run) :
      Covers (licence e (.finish id outcome)) e (e.conclude run task outcome) := by
    have removed : Covers (licence e (.finish id outcome)) e { e.removeRun run.id with
        tasks := e.tasks.set run.id.task (task.conclude e.phase e.now outcome) } :=
      (covers_removeRun run.id).trans (.of_eq rfl rfl)
    exact (removed.trans (covers_note _)).trans
      (covers_deliver fun w aboard => .ended found aboard)
  have step := e.finish_step id outcome
  generalize e.finish id outcome = after at step ⊢
  cases step with
  | unknown => exact .refl _ e
  | last run task found known settled => exact concluded task found
  | closed run task found known owed closing =>
      refine (concluded task found).trans (covers_deliver ?_)
      intro w parked
      have own := housed.parked _ task known w parked
      rw [← own] at known
      exact .closed ((mem_of_run? found).2 ▸ own.symm) known parked closing
  | again run task found known owed admits =>
      obtain rfl : run.id = id := (mem_of_run? found).2
      refine (concluded task found).trans
        (covers_beginRun (known_conclude known outcome) true fun w parked => ?_)
      rw [TaskRecord.conclude_runCount]
      exact .owed known parked admits

theorem covers_abandon (e : Engine) (id : RunId) :
    Covers (licence e (.abandon id)) e (e.abandon id) := by
  unfold abandon
  cases found : e.run? id with
  | none => exact .refl _ e
  | some run =>
      exact (covers_removeRun id).trans (covers_deliver fun w aboard => .dropped found aboard)

/-- Whether everybody who is parked may be told that the engine is closed. -/
def MayDrain (l : Licence) (e : Engine) : Prop :=
  ∀ (t : TaskId) (task : TaskRecord), e.tasks[t]? = some task →
    ∀ w ∈ task.parked, l.told w (.answered (.error .closed))

theorem MayDrain.of_alike {l : Licence} (may : MayDrain l e) (alike : Alike e e') :
    MayDrain l e' := by
  intro t new found w parked
  obtain ⟨old, known, same⟩ := forall₂_getElem? alike.tasks found
  exact may t old known w (same.parked ▸ parked)

theorem covers_drainPending {l : Licence} (may : MayDrain l e) : Covers l e e.drainPending := by
  have told : Covers l e (e.deliver (e.tasks.flatMap (·.parked)) (.answered (.error .closed))) := by
    apply covers_deliver
    intro w mem
    obtain ⟨task, memTask, parked⟩ := List.mem_flatMap.mp mem
    obtain ⟨t, known⟩ := List.mem_iff_getElem?.mp memTask
    exact may t task known w parked
  exact told.trans (.of_eq rfl rfl)

theorem covers_stop {l : Licence} (may : MayDrain l e) :
    Covers l e ({ e with phase := .stopped }.finalize) := by
  have drained : Covers l { e with phase := .stopped } { e with phase := .stopped }.drainPending :=
    covers_drainPending may
  exact drained.within rfl rfl rfl rfl

theorem covers_turnShutdown {l : Licence} (may : MayDrain l e) (s : Shutdown) :
    Covers l e (e.turnShutdown s).1 := by
  cases stage : s.stage with
  | awaitingPump =>
      simp only [turnShutdown, stage]
      exact .refl l e
  | awaitingWorkers =>
      simp only [turnShutdown, stage]
      exact .refl l e
  | draining =>
      simp only [turnShutdown, stage]
      split
      · have rest : Aside ({ e with phase := .stopped }.finalize) (e.complete s).1 :=
          (aside_announce _ _ _).trans (aside_beginFlush _ s)
        exact (covers_stop may).trans rest.alike.covers
      · split
        · have rest : Aside e.drainPending (e.expire s).1 := aside_announce _ _ _
          exact (covers_drainPending may).trans rest.alike.covers
        · exact .refl l e

theorem covers_shutdown {l : Licence} (may : MayDrain l e) (bound : Bound) (grace : Duration) :
    Covers l e (e.shutdown bound grace).1 := by
  cases phase : e.phase with
  | stopped =>
      simp only [shutdown, phase]
      exact .refl l e
  | notStarted =>
      simp only [shutdown, phase]
      exact (covers_stop may).trans (aside_beginFlush _ _).alike.covers
  | running =>
      simp only [shutdown, phase]
      have begun : Alike e e.beginStopping := (Calm.beginStopping e phase).alike
      have asked := (aside_announce e.beginStopping { kind := .shutdownRequested } none).alike
      exact (begun.covers.trans asked.covers).trans
        (covers_turnShutdown ((may.of_alike begun).of_alike asked) _)
  | stopping =>
      simp only [shutdown, phase]
      exact covers_turnShutdown may _

theorem Housed.mayDrain (housed : e.Housed) {m : Move} (shuts : m.isShutdown = true) :
    MayDrain (licence e m) e := by
  intro t task known w parked
  rw [← housed.parked t task known w parked] at known
  exact .drained shuts known parked

theorem Change.covers {l : Licence} (change : Change l e e') : Covers l e e' := by
  cases change with
  | calm calm => exact calm.alike.covers
  | register spec status accepted room => exact .of_eq rfl rfl
  | stop idle covers => exact covers
  | drain closing covers => exact covers
  | request t => exact covers_request t fun _ _ _ mem => absurd mem List.not_mem_nil
  | requestWaiting t covers => exact covers
  | detach w leaves => exact .of_eq rfl rfl
  | finish id outcome covers => exact covers
  | abandon id refuses covers => exact covers

theorem covers_perform (housed : e.Housed) {m : Move} (allowed : e.allows m = true) :
    Covers (licence e m) e (e.perform m) := by
  have suits : (licence e m).Suits e m := by
    cases m with
    | detach waiter => rfl
    | requestWaiting t => exact covers_requestWaiting e t
    | finish id outcome => exact covers_finish housed id outcome
    | abandon id => exact covers_abandon e id
    | shutdown bound grace => exact covers_shutdown (housed.mayDrain rfl) bound grace
    | awaitShutdown s => exact covers_turnShutdown (housed.mayDrain rfl) s
    | _ => trivial
  exact (changes_perform allowed suits).keeps (P := Covers _ e)
    (fun _ _ last covers => covers.trans last.covers) (.refl _ e)

/-! ## 2. Engines in which nothing can be going on -/

/-- Before its start and after its end, an engine has no runs and nobody is parked. -/
def Quiet (e : Engine) : Prop :=
  e.phase = .notStarted ∨ e.phase = .stopped →
    e.runs = [] ∧ ∀ task ∈ e.tasks, task.parked = []

theorem quiet_create (config : Config) (subscribers : List Subscriber) :
    (create config subscribers).Quiet :=
  fun _ => ⟨rfl, fun _ mem => absurd mem List.not_mem_nil⟩

theorem Calm.phase (h : Calm e e') :
    e'.phase = e.phase ∨ e'.phase = .running ∨ e'.phase = .stopping := by
  cases h with
  | clock now later => exact .inl rfl
  | note n remark own silent => exact .inl rfl
  | announce event task due => exact .inl rfl
  | announceEnd stopped => exact .inl rfl
  | beginFlush s stopped => exact .inl (aside_beginFlush e s).phase
  | receive => exact .inl (aside_receive e).phase
  | work i => exact .inl (aside_workLane e i).phase
  | cancel t => exact .inl rfl
  | start token fresh => exact .inr (.inl (aside_startPump _).phase)
  | unwatch due => exact .inl rfl
  | beginStopping running => exact .inr (.inr rfl)
  | setLoop t f keeps => exact .inl rfl
  | endLoop t cancelled => exact .inl rfl
  | setProgress id progress => exact .inl rfl

theorem Quiet.of_alike (h : e.Quiet) (phase : e'.phase = e.phase) (alike : Alike e e') :
    e'.Quiet := by
  intro still
  rw [phase] at still
  obtain ⟨noRuns, nobody⟩ := h still
  have none : e'.runs.map (·.berth) = [] := by rw [alike.runs, noRuns, List.map_nil]
  refine ⟨List.map_eq_nil_iff.mp none, ?_⟩
  intro new mem
  obtain ⟨t, found⟩ := List.mem_iff_getElem?.mp mem
  obtain ⟨old, known, same⟩ := forall₂_getElem? alike.tasks found
  rw [same.parked]
  exact nobody old (List.mem_of_getElem? known)

theorem refusal?_of_still (still : e.phase = .notStarted ∨ e.phase = .stopped) :
    e.refusal? ≠ none := by
  rcases still with phase | phase <;> simp [refusal?, phase]

theorem Quiet.request (h : e.Quiet) (t : TaskId) (waiter : Option WaiterId) :
    (e.request t waiter).1.Quiet := by
  have step := e.request_step t waiter
  generalize e.request t waiter = answer at step ⊢
  cases step with
  | refused err => exact h
  | skipped task known full => exact h
  | merged task known admits willing full overlap =>
      exact fun still => absurd admits (refusal?_of_still still)
  | started task known admits willing room =>
      intro still
      refine absurd admits (refusal?_of_still ?_)
      rwa [beginRun_eq known] at still

theorem Quiet.finish (h : e.Quiet) (id : RunId) (outcome : Outcome) :
    (e.finish id outcome).Quiet := by
  have busy {run : Run} (found : e.run? id = some run) :
      ¬(e.phase = .notStarted ∨ e.phase = .stopped) := by
    intro still
    have mem := (mem_of_run? found).1
    rw [(h still).1] at mem
    cases mem
  have step := e.finish_step id outcome
  generalize e.finish id outcome = after at step ⊢
  cases step with
  | unknown => exact h
  | last run task found known settled => exact fun still => absurd still (busy found)
  | closed run task found known owed closing => exact fun still => absurd still (busy found)
  | again run task found known owed admits =>
      intro still
      rw [beginRun_eq (known_conclude known outcome)] at still
      exact absurd still (busy found)

theorem Quiet.calm (h : e.Quiet) (calm : Calm e e') : e'.Quiet := by
  rcases calm.phase with phase | phase | phase
  · exact h.of_alike phase calm.alike
  · exact fun still => by simp [phase] at still
  · exact fun still => by simp [phase] at still

theorem Quiet.register (h : e.Quiet) (spec : ResolvedSpec) (status : TaskStatus) :
    (e.register spec status).Quiet := by
  intro still
  obtain ⟨noRuns, nobody⟩ := h still
  refine ⟨noRuns, ?_⟩
  intro task mem
  rcases List.mem_append.mp mem with mem | mem
  · exact nobody task mem
  · rw [List.mem_singleton.mp mem, parked_newRecord]

theorem Quiet.stop (h : e.Quiet) (idle : e.phase = .notStarted ∨ e.isClosing = true ∧ e.isIdle = true) :
    ({ e with phase := .stopped }.finalize).Quiet := by
  intro _
  constructor
  · rcases idle with fresh | ⟨-, idle⟩
    · exact (h (.inl fresh)).1
    · simp only [isIdle, Bool.and_eq_true] at idle
      exact List.isEmpty_iff.mp idle.1.1
  · intro task mem
    obtain ⟨old, -, rfl⟩ := List.mem_map.mp mem
    rfl

theorem Quiet.drainPending (h : e.Quiet) : e.drainPending.Quiet := by
  intro still
  refine ⟨(h still).1, ?_⟩
  intro task mem
  obtain ⟨old, -, rfl⟩ := List.mem_map.mp mem
  rfl

theorem Quiet.detach (h : e.Quiet) (w : WaiterId) : (e.detach w).Quiet := by
  intro still
  obtain ⟨noRuns, nobody⟩ := h still
  refine ⟨noRuns, ?_⟩
  intro new mem
  obtain ⟨t, found⟩ := List.mem_iff_getElem?.mp mem
  have fewer := forall₂_modify (R := fun old new : TaskRecord => new.parked ⊆ old.parked)
    (f := (·.detach w)) (fun _ => List.Subset.refl _) (fun _ => List.filter_subset_self _)
    e.tasks w.task
  obtain ⟨old, known, fewer⟩ := forall₂_getElem? fewer found
  rw [nobody old (List.mem_of_getElem? known)] at fewer
  exact List.eq_nil_of_subset_nil fewer

theorem Quiet.abandon (h : e.Quiet) (id : RunId) : (e.abandon id).Quiet := by
  intro still
  have same : (e.abandon id).phase = e.phase ∧ (e.abandon id).tasks = e.tasks ∧
      (e.abandon id).runs ⊆ e.runs := by
    unfold Engine.abandon
    split
    · exact ⟨rfl, rfl, List.filter_subset_self _⟩
    · exact ⟨rfl, rfl, List.Subset.refl _⟩
  obtain ⟨phase, tasks, fewer⟩ := same
  rw [phase] at still
  obtain ⟨noRuns, nobody⟩ := h still
  rw [noRuns] at fewer
  exact ⟨List.eq_nil_of_subset_nil fewer, tasks ▸ nobody⟩

theorem Quiet.change {l : Licence} (change : Change l e e') (h : e.Quiet) : e'.Quiet := by
  cases change with
  | calm calm => exact h.calm calm
  | register spec status accepted room => exact h.register spec status
  | stop idle covers => exact h.stop idle
  | drain closing covers => exact h.drainPending
  | request t => exact h.request t none
  | requestWaiting t covers =>
      have drawn : (e.drawSerial t).Quiet := h.of_alike rfl (alike_drawSerial e t)
      exact drawn.request t _
  | detach w leaves => exact h.detach w
  | finish id outcome covers => exact h.finish id outcome
  | abandon id refuses covers => exact h.abandon id

/-! ## 3. All histories -/

def Licence.staying : Licence := ⟨fun _ => False, fun _ _ => True, fun _ _ => True⟩

theorem Licence.suits_staying (e : Engine) {m : Move} (stays : ∀ w, m ≠ .detach w) :
    Licence.staying.Suits e m := by
  have covers (e' : Engine) : Covers .staying e e' :=
    ⟨fun _ _ _ => .inr trivial, fun _ _ _ _ => .inr trivial⟩
  cases m with
  | detach w => exact absurd rfl (stays w)
  | requestWaiting t => exact covers _
  | finish id outcome => exact covers _
  | abandon id => exact covers _
  | shutdown bound grace => exact covers _
  | awaitShutdown s => exact covers _
  | _ => trivial

/-- What every change keeps in which nobody leaves, and every caller who leaves and may be gone,
every history keeps; callers who leave before they were accepted need not be among those. -/
theorem keeps_after_leaving {P : Engine → Prop} (gone : WaiterId → Prop) {moves : List Move}
    (change : ∀ e e' : Engine, Change .staying e e' → P e → P e')
    (detach : ∀ (e : Engine) (w : WaiterId), (w ∈ e.accepted → gone w) → P e → P (e.detach w))
    (admitted : e.admits moves = true)
    (leaves : ∀ before w rest, moves = before ++ .detach w :: rest →
      w ∈ (e.after before).accepted → gone w) (he : P e) : P (e.after moves) := by
  induction moves generalizing e with
  | nil => exact he
  | cons m moves ih =>
      obtain ⟨allowed, rest⟩ := (admits_cons ..).mp admitted
      have now : P (e.perform m) := by
        by_cases left : ∃ w, m = .detach w
        · obtain ⟨w, rfl⟩ := left
          exact detach e w (leaves [] w moves rfl) he
        · exact (changes_perform allowed
            (Licence.suits_staying e fun w same => left ⟨w, same⟩)).keeps change he
      apply ih rest ?_ now
      intro before w later split
      exact leaves (m :: before) w later (by rw [split, List.cons_append])

theorem Kept.after {gone : WaiterId → Prop} {moves : List Move} (h : Kept gone e)
    (housed : e.Housed) (admitted : e.admits moves = true)
    (leaves : ∀ before w rest, moves = before ++ .detach w :: rest →
      w ∈ (e.after before).accepted → gone w) : Kept gone (e.after moves) := by
  refine (keeps_after_leaving gone (P := fun e => e.Housed ∧ Kept gone e) ?_ ?_ admitted leaves
    ⟨housed, h⟩).2
  · intro e e' change both
    exact ⟨both.1.change change, both.2.change change both.1 fun _ => False.elim⟩
  · intro e w left both
    exact ⟨both.1.detach w, both.2.detach w left⟩

/-- Whether a caller has left since its request was accepted. -/
def HasLeft (start : Engine) (moves : List Move) (w : WaiterId) : Prop :=
  ∃ before rest, moves = before ++ .detach w :: rest ∧ w ∈ (start.after before).accepted

/-- How a caller came aboard a run. -/
def HasBoarded (start : Engine) (moves : List Move) (w : WaiterId) (id : RunId) : Prop :=
  ∃ before m rest, moves = before ++ m :: rest ∧ Boards (start.after before) m w id

/-- How a caller was told a result. -/
inductive WasTold (start : Engine) (moves : List Move) (w : WaiterId) : WaitResult → Prop where
  | ended {before rest : List Move} {id : RunId} {outcome : Outcome} {run : Run}
      (split : moves = before ++ .finish id outcome :: rest)
      (found : (start.after before).run? id = some run) (aboard : w ∈ run.waiters)
      (boarded : HasBoarded start before w id) :
      WasTold start moves w (outcome.waitResult !(start.after before).isOpen)
  /-- It was still parked when a run of its task ended behind a closed gate. -/
  | closed {before rest : List Move} {id : RunId} {outcome : Outcome} {task : TaskRecord}
      (split : moves = before ++ .finish id outcome :: rest) (same : id.task = w.task)
      (known : (start.after before).tasks[w.task]? = some task) (parked : w ∈ task.parked)
      (closing : (start.after before).isOpen = false) :
      WasTold start moves w (.error .closed)
  /-- It was still parked when a shutdown drained the tasks. -/
  | drained {before rest : List Move} {m : Move} {task : TaskRecord}
      (split : moves = before ++ m :: rest) (shuts : m.isShutdown = true)
      (known : (start.after before).tasks[w.task]? = some task) (parked : w ∈ task.parked) :
      WasTold start moves w (.error .closed)

/-- The one place in which a caller waits: aboard one run of its task, or parked at its task, which
then owes a run and is full. -/
def WaitsOnce (e : Engine) (w : WaiterId) : Prop :=
  (∃ run ∈ e.runs, run.id.task = w.task ∧ run.waiters.count w = 1 ∧
    (∀ other ∈ e.runs, w ∈ other.waiters → other = run) ∧
    ∀ task ∈ e.tasks, w ∉ task.parked) ∨
  (∃ task, e.tasks[w.task]? = some task ∧ task.parked.count w = 1 ∧
    task.pending = true ∧ task.running = task.spec.maxConcurrent ∧ 1 ≤ task.spec.maxConcurrent ∧
    (∀ (t : TaskId) (other : TaskRecord), e.tasks[t]? = some other → w ∈ other.parked → t = w.task) ∧
    ∀ run ∈ e.runs, w ∉ run.waiters)

theorem boarded_of_mem {config : Config} {subscribers : List Subscriber} {moves : List Move}
    (admitted : (create config subscribers).admits moves = true) {run : Run}
    (mem : run ∈ ((create config subscribers).after moves).runs) (aboard : w ∈ run.waiters) :
    HasBoarded (create config subscribers) moves w run.id := by
  have present : ∃ r ∈ ((create config subscribers).after moves).runs,
      r.id = run.id ∧ w ∈ r.waiters := ⟨run, mem, rfl, aboard⟩
  obtain ⟨before, m, rest, split, absent, r, memR, sameId, hw⟩ := origin_of_after
    (P := fun e => ∃ r ∈ e.runs, r.id = run.id ∧ w ∈ r.waiters)
    (fun ⟨_, mem, _⟩ => absurd mem List.not_mem_nil) present
  rw [split, admits_append, admits_cons] at admitted
  have housed := keeps_after (fun _ _ _ => Housed.change) admitted.1
    (housed_create config subscribers)
  rcases (covers_perform housed admitted.2.1).boards r memR w hw with ⟨old, memOld, same, hOld⟩ | boards
  · exact absurd ⟨old, memOld, same.trans sameId, hOld⟩ absent
  · exact ⟨before, m, rest, split, sameId ▸ boards⟩

/-- Every answer is the result of a run or the message that the engine is closed; work that does
not refuse calls leaves nobody without one. -/
theorem told_of_mem {config : Config} {subscribers : List Subscriber} {moves : List Move}
    (admitted : (create config subscribers).admits moves = true) {d : Delivery}
    (plays : ∀ task, ((create config subscribers).after moves).tasks[w.task]? = some task →
      task.spec.work.refusesCalls = false)
    (mem : (w, d) ∈ ((create config subscribers).after moves).mail) :
    ∃ result, d = .answered result ∧ WasTold (create config subscribers) moves w result := by
  obtain ⟨before, m, rest, split, absent, present⟩ := origin_of_after
    (P := fun e => (w, d) ∈ e.mail) List.not_mem_nil mem
  have parts := admitted
  rw [split, admits_append, admits_cons] at parts
  obtain ⟨first, allowed, last⟩ := parts
  have housed := keeps_after (fun _ _ _ => Housed.change) first (housed_create config subscribers)
  have answers := ((covers_perform housed allowed).told w d present).resolve_left absent
  cases answers with
  | ended found aboard =>
      obtain ⟨memRun, sameId⟩ := mem_of_run? found
      exact ⟨_, rfl, .ended split found aboard (sameId ▸ boarded_of_mem first memRun aboard)⟩
  | closed same known parked closing => exact ⟨_, rfl, .closed split same known parked closing⟩
  | drained shuts known parked => exact ⟨_, rfl, .drained split shuts known parked⟩
  | dropped found aboard =>
      -- only work that refuses calls abandons its run, and this task has other work
      obtain ⟨memRun, sameId⟩ := mem_of_run? found
      obtain ⟨task, known, refuses⟩ := (Option.any_eq_true ..).mp allowed
      have own := housed.aboard _ memRun w aboard
      rw [sameId] at own
      rw [← own] at known
      obtain ⟨new, found', later⟩ := ((grows_perform allowed).trans (grows_after last)) _ task known
      have final := plays new (by rwa [split, after_append, after_cons])
      rw [later.spec] at final
      rw [Work.refuses_eq_false final] at refuses
      cases refuses

theorem exists_of_sum_map_eq_one {α : Type} {l : List α} {f : α → Nat} (one : (l.map f).sum = 1) :
    ∃ a ∈ l, f a = 1 ∧ ∀ b ∈ l, 0 < f b → b = a := by
  induction l with
  | nil => cases one
  | cons c l ih =>
      rw [List.map_cons, List.sum_cons] at one
      by_cases here : f c = 0
      · rw [here, Nat.zero_add] at one
        obtain ⟨a, mem, fa, only⟩ := ih one
        refine ⟨a, List.mem_cons_of_mem c mem, fa, ?_⟩
        intro b hb positive
        rcases List.mem_cons.mp hb with rfl | hb
        · exact absurd here (Nat.ne_of_gt positive)
        · exact only b hb positive
      · have others : (l.map f).sum = 0 := by omega
        refine ⟨c, List.mem_cons_self, by omega, ?_⟩
        intro b hb positive
        rcases List.mem_cons.mp hb with rfl | hb
        · rfl
        · have zero := List.sum_eq_zero_iff_forall_eq_nat.mp others (f b) (List.mem_map_of_mem hb)
          exact absurd zero (Nat.ne_of_gt positive)

theorem delivery?_eq_none_iff (e : Engine) (w : WaiterId) : e.delivery? w = none ↔ e.told w = 0 := by
  rw [delivery?, List.lookup_eq_none_iff, told, List.count_eq_zero, List.mem_map]
  constructor
  · rintro none ⟨entry, mem, rfl⟩
    exact absurd (none entry mem) (by simp)
  · intro none entry mem
    exact bne_iff_ne.mpr fun same => none ⟨entry, mem, same.symm⟩

theorem not_mem_of_sum_count_eq_zero {α : Type} {l : List α} {f : α → List WaiterId}
    (none : (l.map fun a => (f a).count w).sum = 0) : ∀ a ∈ l, w ∉ f a := by
  intro a mem
  have zero := List.sum_eq_zero_iff_forall_eq_nat.mp none _ (List.mem_map_of_mem mem)
  exact List.count_eq_zero.mp zero

theorem aboard_eq (e : Engine) (w : WaiterId) :
    e.aboard w = (e.runs.map fun run => run.waiters.count w).sum := by
  rw [Engine.aboard, List.map_map]
  rfl

/-- Whoever is in one place, and has not been told anything, waits there. -/
theorem waitsOnce_of_places (sound : e.Sound) (housed : e.Housed) (one : e.places w = 1)
    (untold : e.told w = 0) : WaitsOnce e w := by
  rw [places, untold, Nat.add_zero] at one
  by_cases flying : e.aboard w = 0
  · -- it is parked, so its task owes a run, and is full
    rw [flying, Nat.zero_add] at one
    obtain ⟨task, mem, once, -⟩ := exists_of_sum_map_eq_one one
    have parked : w ∈ task.parked := List.count_pos_iff.mp (by omega)
    obtain ⟨t, known⟩ := List.mem_iff_getElem?.mp mem
    obtain rfl : w.task = t := housed.parked t task known w parked
    have record := sound.known w.task task known
    have owed := record.parked (List.ne_nil_of_mem parked)
    rw [aboard_eq] at flying
    refine .inr ⟨task, known, once, owed, (record.owed owed).2, record.room, ?_,
      not_mem_of_sum_count_eq_zero flying⟩
    exact fun t other found mem => (housed.parked t other found w mem).symm
  · have nowhere : e.parked w = 0 := by omega
    have single : e.aboard w = 1 := by omega
    rw [aboard_eq] at single
    obtain ⟨run, mem, once, only⟩ := exists_of_sum_map_eq_one single
    have aboard : w ∈ run.waiters := List.count_pos_iff.mp (by omega)
    refine .inl ⟨run, mem, (housed.aboard run mem w aboard).symm, once, ?_,
      not_mem_of_sum_count_eq_zero nowhere⟩
    exact fun other memOther also => only other memOther (List.count_pos_iff.mpr also)

/-- **Waiting callers are neither lost nor told twice.**  Whatever happens to an engine, and in
whatever order: a caller whose request was accepted, who has not left and not been told anything,
waits in exactly one place; nobody is told twice; what a caller is told is how the run ended that it
had started or been merged into, or that the engine is closed, if it was still parked behind a
closed gate or when a shutdown drained its task; and once the engine has stopped, everybody who
stayed has been told.  Work that refuses calls is excepted: it leaves its callers without an
answer. -/
theorem waiting_callers_told_once (config : Config) (subscribers : List Subscriber)
    (moves : List Move) (admitted : (create config subscribers).admits moves = true) (w : WaiterId)
    (accepted : w ∈ ((create config subscribers).after moves).accepted)
    (plays : ∀ task, ((create config subscribers).after moves).tasks[w.task]? = some task →
      task.spec.work.refusesCalls = false) :
    let start := create config subscribers
    let e := start.after moves
    (¬HasLeft start moves w → e.delivery? w = none → WaitsOnce e w) ∧
    e.told w ≤ 1 ∧
    (∀ d, (w, d) ∈ e.mail → ∃ result, d = .answered result ∧ WasTold start moves w result) ∧
    (¬HasLeft start moves w → e.phase = .stopped →
      ∃ result, e.delivery? w = some (.answered result)) := by
  intro start e
  have sound : e.Sound := keeps_after (fun _ _ _ => Sound.change) admitted
    (sound_create config subscribers)
  have housed : e.Housed := keeps_after (fun _ _ _ => Housed.change) admitted
    (housed_create config subscribers)
  have quiet : e.Quiet := keeps_after (fun _ _ _ => Quiet.change) admitted
    (quiet_create config subscribers)
  have kept : Kept (HasLeft start moves) e :=
    (kept_create _ config subscribers).after (housed_create config subscribers) admitted
      fun before _ rest split mem => ⟨before, rest, split, mem⟩
  have once := kept.once w
  have told (d : Delivery) (mem : (w, d) ∈ e.mail) :=
    told_of_mem admitted plays mem
  refine ⟨?_, ?_, told, ?_⟩
  · intro stays untold
    have somewhere := kept.kept w accepted stays
    exact waitsOnce_of_places sound housed (by omega) ((delivery?_eq_none_iff e w).mp untold)
  · unfold places at once
    omega
  · intro stays stopped
    have somewhere := kept.kept w accepted stays
    obtain ⟨noRuns, nobody⟩ := quiet (.inr stopped)
    cases found : e.delivery? w with
    | some d =>
        obtain ⟨newer, older, mail, -⟩ := List.lookup_eq_some_iff.mp found
        have mem : (w, d) ∈ e.mail := mail ▸ List.mem_append_right _ List.mem_cons_self
        obtain ⟨result, rfl, -⟩ := told d mem
        exact ⟨result, rfl⟩
    | none =>
        have waits := waitsOnce_of_places sound housed (by omega)
          ((delivery?_eq_none_iff e w).mp found)
        rcases waits with ⟨run, mem, -⟩ | ⟨task, known, count, -⟩
        · rw [noRuns] at mem
          cases mem
        · rw [nobody task (List.mem_of_getElem? known)] at count
          cases count

/-- Two callers, of which the second is folded into the owed run, and a shutdown. -/
def stoppedHistory : List Move :=
  foldedHistory ++
    [.finish ⟨0, 1⟩ .succeeded, .shutdown (.token (.named "never")) .zero, .watch,
      .finish ⟨0, 2⟩ (.canceled .canceled),
      .awaitShutdown { bound := .token (.named "never"), grace := .zero }]

theorem waiting_callers_told_once_stopped :
    (create {} []).admits stoppedHistory = true ∧
    ((create {} []).after stoppedHistory).phase = .stopped ∧
    ∃ result, ((create {} []).after stoppedHistory).delivery? ⟨0, 1⟩ = some (.answered result) := by
  have admitted : (create {} []).admits stoppedHistory = true := by decide
  have stopped : ((create {} []).after stoppedHistory).phase = .stopped := rfl
  have accepted : ⟨0, 1⟩ ∈ ((create {} []).after stoppedHistory).accepted := by decide
  have plays : ∀ task, ((create {} []).after stoppedHistory).tasks[0]? = some task →
      task.spec.work.refusesCalls = false := by
    intro task known
    obtain rfl := Option.some.inj known
    rfl
  have stays : ¬HasLeft (create {} []) stoppedHistory ⟨0, 1⟩ := by
    rintro ⟨before, rest, split, -⟩
    have mem : Move.detach ⟨0, 1⟩ ∈ stoppedHistory :=
      split ▸ List.mem_append_right _ List.mem_cons_self
    simp [stoppedHistory, foldedHistory] at mem
  obtain ⟨-, -, -, told⟩ :=
    waiting_callers_told_once {} [] stoppedHistory admitted ⟨0, 1⟩ accepted plays
  exact ⟨admitted, stopped, told stays stopped⟩

end Engine

end TaskEngine
