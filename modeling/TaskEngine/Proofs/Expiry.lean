/-
  TaskEngine/Proofs/Expiry.lean
  =============================
  **A shutdown that runs out of time says what is stuck.**

  A shutdown is a call that is polled.  When its bound is reached it returns in that poll, whatever it
  waits for.  If something is left of what it waits for, it names the tasks that have runs, tells
  everybody who is parked that the engine is closed, and leaves the runs alone (`Expired`).

  The engine goes on stopping then.  No run is owed any more and the gate is shut, so each of the runs
  that were left ends once, with an answer to its own callers, and is followed by none (`EndsOnce`);
  and a later shutdown that finds nothing left stops the engine.
-/
import Mathlib.Data.List.Nodup
import TaskEngine.Proofs.Closing
import TaskEngine.Proofs.Polls
import TaskEngine.Proofs.Stillness

namespace TaskEngine

namespace Engine

variable {e e' : Engine}

/-! ## 1. Polls when the bound is reached -/

/-- What the expiry of a shutdown does: the engine is stopping, with its runs and counters as they
were; no run is owed any more, and whoever was parked for one is told that the engine is closed.  If
it was running, it was asked to stop first, which cancels its run token and marks its tasks. -/
structure Expired (e e' : Engine) : Prop where
  phase : e'.phase = .stopping
  runs : e'.runs = e.runs
  runToken : e'.runToken = e.runToken
  cancellation : e'.cancellation =
    if e.phase = .running then e.cancellation.cancel e.runToken else e.cancellation
  tasks : e'.tasks = e.tasks.map fun t =>
    { if e.phase = .running then t.markStopping else t with pending := false, parked := [] }
  mail : e'.mail = (e.tasks.flatMap (·.parked)).map (·, .answered (.error .closed)) ++ e.mail
  told : ∀ task ∈ e.tasks, ∀ w ∈ task.parked,
    e'.delivery? w = some (.answered (.error .closed))

theorem delivery?_deliver (e : Engine) {w : WaiterId} {waiters : List WaiterId} (mem : w ∈ waiters)
    (d : Delivery) : (e.deliver waiters d).delivery? w = some d := by
  induction waiters with
  | nil => cases mem
  | cons v waiters ih =>
      by_cases same : w = v
      · subst same
        simp [delivery?, deliver]
      · have rest := ih ((List.mem_cons.mp mem).resolve_left same)
        simp only [delivery?, deliver, List.map_cons, List.cons_append] at rest ⊢
        rw [List.lookup_cons, beq_false_of_ne same]
        exact rest

theorem stuck_asked (e : Engine) : e.asked.stuck = e.stuck := by
  unfold asked
  split
  · have running (t : TaskRecord) : t.markStopping.running = t.running := by
      exact t.alike_markStopping.running
    have name (t : TaskRecord) : t.markStopping.displayName = t.displayName := by
      rw [TaskRecord.displayName, TaskRecord.name, t.alike_markStopping.spec]
      rfl
    show ((e.tasks.map (·.markStopping)).filter _).map _ = _
    simp [stuck, List.filter_map, Function.comp_def, running, name]
  · rfl

theorem expired_expire (started : e.phase = .running ∨ e.phase = .stopping) (s : Shutdown) :
    Expired e (e.asked.expire s).1 := by
  have phase : (e.asked.expire s).1.phase = .stopping := phase_asked started
  have told (e' : Engine) (mail : e'.mail =
      (e.tasks.flatMap (·.parked)).map (·, .answered (.error .closed)) ++ e.mail) :
      ∀ task ∈ e.tasks, ∀ w ∈ task.parked, e'.delivery? w = some (.answered (.error .closed)) := by
    intro task mem w parked
    have delivered := e.delivery?_deliver (List.mem_flatMap_of_mem mem parked)
      (.answered (.error .closed))
    rwa [delivery?, mail]
  rcases started with running | stopping
  · rw [asked_of_running running] at phase ⊢
    have parked : ((e.tasks.map (·.markStopping)).flatMap (·.parked)) = e.tasks.flatMap (·.parked) := by
      rw [List.flatMap_map]
      exact List.flatMap_congr fun t _ => t.alike_markStopping.parked
    have mail : ((e.beginStopping.publish { kind := .shutdownRequested }).expire s).1.mail =
        (e.tasks.flatMap (·.parked)).map (·, .answered (.error .closed)) ++ e.mail := by
      show ((e.tasks.map (·.markStopping)).flatMap (·.parked)).map _ ++ e.mail = _
      rw [parked]
    refine ⟨phase, rfl, rfl, ?_, ?_, mail, told _ mail⟩
    · rw [if_pos running]
      rfl
    · simp only [if_pos running]
      show (e.tasks.map (·.markStopping)).map TaskRecord.forget = _
      rw [List.map_map]
      rfl
  · have other : e.phase ≠ .running := by rw [stopping]; decide
    rw [asked_of_not_running other] at phase ⊢
    refine ⟨phase, rfl, rfl, ?_, ?_, rfl, told _ rfl⟩
    · rw [if_neg other]
      rfl
    · simp only [if_neg other]
      rfl

/-! ## 2. What is left ends once -/

/-- No run is owed and nobody is parked. -/
def OwesNothing (e : Engine) : Prop := ∀ task ∈ e.tasks, task.pending = false ∧ task.parked = []

theorem OwesNothing.of_forall₂ {R : TaskRecord → TaskRecord → Prop} (h : e.OwesNothing)
    (tasks : List.Forall₂ R e.tasks e'.tasks)
    (keeps : ∀ old new, R old new → new.pending = old.pending ∧ new.parked ⊆ old.parked) :
    e'.OwesNothing := by
  intro new mem
  obtain ⟨t, found⟩ := List.mem_iff_getElem?.mp mem
  obtain ⟨old, known, related⟩ := forall₂_getElem? tasks found
  obtain ⟨pending, fewer⟩ := keeps old new related
  obtain ⟨settled, nobody⟩ := h old (List.mem_of_getElem? known)
  rw [nobody] at fewer
  exact ⟨pending.trans settled, List.eq_nil_of_subset_nil fewer⟩

theorem OwesNothing.of_alike (h : e.OwesNothing) (alike : Alike e e') : e'.OwesNothing :=
  h.of_forall₂ alike.tasks fun _ _ same => ⟨same.pending, same.parked ▸ List.Subset.refl _⟩

theorem OwesNothing.finish (h : e.OwesNothing) (id : RunId) (outcome : Outcome) :
    (e.finish id outcome).OwesNothing := by
  have settled {task : TaskRecord} {t : TaskId} (known : e.tasks[t]? = some task) :=
    h task (List.mem_of_getElem? known)
  have step := e.finish_step id outcome
  generalize e.finish id outcome = after at step ⊢
  cases step with
  | unknown => exact h
  | last run task found known none =>
      intro new mem
      rcases List.mem_or_eq_of_mem_set mem with mem | rfl
      · exact h new mem
      · rw [TaskRecord.conclude_parked, (settled known).2, ite_self]
        exact ⟨rfl, rfl⟩
  | closed run task found known owed closing =>
      rw [(settled known).1] at owed
      cases owed
  | again run task found known owed admits =>
      rw [(settled known).1] at owed
      cases owed

/-- Behind a shut gate no request is folded into an owed run. -/
theorem OwesNothing.change {l : Licence} (change : Change l e e') (shut : e.isShut = true)
    (h : e.OwesNothing) : e'.OwesNothing := by
  have forgets (tasks : List TaskRecord) :
      ∀ task ∈ tasks.map TaskRecord.forget, task.pending = false ∧ task.parked = [] := by
    intro task mem
    obtain ⟨old, -, rfl⟩ := List.mem_map.mp mem
    exact ⟨rfl, rfl⟩
  cases change with
  | calm calm => exact h.of_alike calm.alike
  | register spec status accepted room =>
      rw [initialStatus?_of_isShut shut] at accepted
      cases accepted
  | stop idle covers =>
      intro task mem
      obtain ⟨old, -, rfl⟩ := List.mem_map.mp mem
      exact ⟨rfl, rfl⟩
  | drain closing covers => exact forgets e.tasks
  | request t =>
      rw [request_of_isShut shut]
      exact h
  | requestWaiting t covers =>
      have drawn : (e.drawSerial t).isShut = true := shut
      have kept : (e.drawSerial t).OwesNothing := h.of_alike (alike_drawSerial e t)
      rw [requestWaiting_fst, request_of_isShut drawn]
      exact kept
  | detach w leaves =>
      exact h.of_forall₂ (forall₂_modify
        (R := fun old new : TaskRecord => new.pending = old.pending ∧ new.parked ⊆ old.parked)
        (f := (·.detach w)) (fun _ => ⟨rfl, List.Subset.refl _⟩)
        (fun _ => ⟨rfl, List.filter_subset_self _⟩) e.tasks w.task) fun _ _ keeps => keeps
  | finish id outcome covers => exact h.finish id outcome
  | abandon id refuses covers =>
      unfold Engine.abandon
      split <;> exact h

/-- The run ends as any other: it is counted once, the callers that wait for it are told how it
ended, no other run begins, and it never comes back. -/
structure EndsOnce (e : Engine) (run : Run) (outcome : Outcome) : Prop where
  counted : ∃ task, e.tasks[run.id.task]? = some task ∧
    (e.finish run.id outcome).tasks = e.tasks.set run.id.task (task.conclude e.phase e.now outcome)
  ended : (e.finish run.id outcome).ended run.id.task = e.ended run.id.task + 1
  runs : (e.finish run.id outcome).runs = e.runs.filter (·.id != run.id)
  told : ∀ w ∈ run.waiters,
    (e.finish run.id outcome).delivery? w = some (.answered (outcome.waitResult true))
  gone : ∀ moves, (e.finish run.id outcome).admits moves = true →
    ((e.finish run.id outcome).after moves).run? run.id = none

theorem run?_eq_none_of_ids {id : RunId} (absent : id ∉ e.runs.map (·.id)) : e.run? id = none := by
  refine List.find?_eq_none.mpr fun run mem same => absent ?_
  rw [← beq_iff_eq.mp same]
  exact List.mem_map_of_mem mem

theorem endsOnce_of_isShut {run : Run} (shut : e.isShut = true) (owes : e.OwesNothing)
    (housed : e.Housed) (found : e.run? run.id = some run) (outcome : Outcome) :
    EndsOnce e run outcome := by
  obtain ⟨task, known, -⟩ := housed.counted run (mem_of_run? found).1
  have settled := (owes task (List.mem_of_getElem? known)).1
  have is : e.finish run.id outcome = e.conclude run task outcome := by
    simp [Engine.finish, found, known, settled]
  have closed : e.isOpen = false := by
    rw [isOpen, (isShut_iff e).mp shut]
    rfl
  refine ⟨⟨task, known, by rw [is]; rfl⟩, ?_, by rw [is]; rfl, ?_, ?_⟩
  · rw [is]
    exact List.countP_cons_of_pos (by simp [Note.ends])
  · intro w mem
    rw [is, conclude, closed]
    exact delivery?_deliver _ mem _
  · intro moves admitted
    have behind := sealed_after admitted (sealed_finish shut run.id outcome).shut
    refine run?_eq_none_of_ids fun mem => ?_
    have still : run.id ∈ (e.finish run.id outcome).runs.map (·.id) := behind.ids.subset mem
    rw [is] at still
    obtain ⟨other, mem, same⟩ := List.mem_map.mp still
    exact absurd same (bne_iff_ne.mp (List.mem_filter.mp mem).2)

/-- A run that is still in flight has the callers that it had. -/
theorem Sealed.waiters (behind : Sealed e e') (housed : e.Housed) {run now : Run}
    (mem : run ∈ e.runs) (found : e'.run? run.id = some now) : now.waiters = run.waiters := by
  obtain ⟨memNow, sameId⟩ := mem_of_run? found
  obtain ⟨old, memOld, berth⟩ := List.mem_map.mp (behind.runs.subset (List.mem_map_of_mem memNow))
  obtain ⟨id, waiters⟩ := Prod.mk.inj berth
  have is : old = run := List.inj_on_of_nodup_map housed.unique memOld mem (id.trans sameId)
  rw [← is, waiters]

/-! ## 3. Later shutdowns -/

/-- Whoever waits for the runs and finds nothing left stops the engine. -/
theorem poll_of_isIdle {p : Poll} (closing : e.isClosing = true) (idle : e.isIdle = true)
    (draining : p.shutdown.stage = .draining) :
    (e.poll p).1.phase = .stopped ∧ ∀ err, (e.poll p).2 ≠ .error (.error err) := by
  have completes (s : Shutdown) (stage : s.stage = .draining) :
      (e.turnShutdown s).1.phase = .stopped ∧ ∀ err, (e.turnShutdown s).2 ≠ .error (.error err) := by
    simp only [turnShutdown, stage, idle, if_true, complete]
    exact ⟨(aside_beginFlush _ s).phase, beginFlush_ne_error _ s⟩
  cases p with
  | waits s => exact completes s draining
  | asks bound grace =>
      cases phase : e.phase with
      | notStarted => simp [isClosing, phase] at closing
      | running => simp [isClosing, phase] at closing
      | stopping =>
          simp only [poll, shutdown, phase]
          exact completes _ rfl
      | stopped =>
          simp only [poll, shutdown, phase]
          refine ⟨trivial, fun err ends => ?_⟩
          cases ends

/-- Later on the gate is still shut and nothing is owed, and no run is new. -/
theorem Expired.later (expired : Expired e e') (housed : e'.Housed) {moves : List Move}
    (admitted : e'.admits moves = true) :
    Sealed e' (e'.after moves) ∧ (e'.after moves).OwesNothing ∧ (e'.after moves).Housed := by
  have shut : e'.isShut = true := isShut_of_isClosing (by rw [isClosing, expired.phase]; rfl)
  have owes : e'.OwesNothing := by
    intro task mem
    rw [expired.tasks] at mem
    obtain ⟨old, -, rfl⟩ := List.mem_map.mp mem
    exact ⟨rfl, rfl⟩
  refine keeps_after (P := fun now => Sealed e' now ∧ now.OwesNothing ∧ now.Housed) ?_ admitted
    ⟨.refl shut, owes, housed⟩
  rintro l a b change ⟨behind, owes, housed⟩
  exact ⟨behind.trans (change.sealed behind.shut), owes.change change behind.shut,
    housed.change change⟩

theorem Expired.isClosing_later (expired : Expired e e') {moves : List Move}
    (admitted : e'.admits moves = true) : (e'.after moves).isClosing = true := by
  have closing : e'.isClosing = true := by
    rw [isClosing, expired.phase]
    rfl
  exact feeds_after (P := (·.isClosing = true)) (fun _ _ closing feeds => feeds.isClosing closing)
    admitted closing

/-- Before the start and after the stop, a poll at which the bound is reached is no error. -/
theorem poll_of_reached {p : Poll} (still : e.phase = .notStarted ∨ e.phase = .stopped)
    (idle : e.isIdle = true) (fits : p.fits e = true)
    (reached : (e.poll p).1.boundReached p.shutdown.bound = true) :
    (e.poll p).2 = .error (.ok ()) := by
  cases p with
  | asks bound grace =>
      rcases still with fresh | stopped
      · simp only [poll, shutdown, fresh] at reached ⊢
        exact beginFlush_of_reached reached
      · simp only [poll, shutdown, stopped]
  | waits s =>
      by_cases draining : s.stage = .draining
      · simp only [poll, turnShutdown, draining, idle, if_true, complete] at reached ⊢
        exact beginFlush_of_reached reached
      · simp only [poll, turnShutdown_of_flushing draining] at reached ⊢
        exact turnFlush_of_reached reached

/-! ## 4. All histories -/

/-- **A bounded shutdown says exactly what is stuck.**  In every state that an engine can be in, and
for every bound: a poll of a shutdown at which the bound is reached returns.  It returns an error
exactly if a run, a schedule or the watcher is left; then the error names, in order of registration,
the tasks that have runs, and the shutdown has done no more than `Expired` says.  Whatever happens
afterwards, each run that was left keeps its callers and ends once, and any shutdown that waits for
the runs and finds nothing left stops the engine. -/
theorem expired_shutdown_says_what_is_stuck (config : Config) (subscribers : List Subscriber)
    (before : List Move) (admitted : (create config subscribers).admits before = true) (p : Poll)
    (fits : p.fits ((create config subscribers).after before) = true)
    (reached : (((create config subscribers).after before).poll p).1.boundReached
      p.shutdown.bound = true) :
    let e := (create config subscribers).after before
    let e' := (e.poll p).1
    (e.isIdle = true → (e.poll p).2 = .error (.ok ())) ∧
    (e.isIdle = false →
      (e.poll p).2 = .error (.error (.graceExceeded p.shutdown.grace
        ((e.tasks.filter fun t => 0 < t.running).map (·.displayName)))) ∧
      Expired e e' ∧
      ∀ later, e'.admits later = true →
        (∀ run ∈ e'.runs, ∀ now, (e'.after later).run? run.id = some now →
          now.waiters = run.waiters ∧ ∀ outcome, EndsOnce (e'.after later) now outcome) ∧
        ∀ q : Poll, q.shutdown.stage = .draining → (e'.after later).isIdle = true →
          ((e'.after later).poll q).1.phase = .stopped ∧
            ∀ err, ((e'.after later).poll q).2 ≠ .error (.error err)) := by
  intro e e'
  have still : e.Still := still_after admitted
  have housed : e.Housed := keeps_after (fun _ _ _ => Housed.change) admitted
    (housed_create config subscribers)
  have calm (phase : e.phase = .notStarted ∨ e.phase = .stopped) : e.isIdle = true :=
    phase.elim still.fresh fun stopped => (still.settled stopped).idle
  by_cases started : e.phase = .running ∨ e.phase = .stopping
  · obtain ⟨is, draining⟩ := poll_of_started started fits
    have reached' : (e.asked.turnShutdown p.shutdown).1.boundReached p.shutdown.bound = true := by
      rwa [← is]
    refine ⟨fun idle => ?_, fun busy => ?_⟩
    · have idle' : e.asked.isIdle = true := (isIdle_asked e).trans idle
      simp only [turnShutdown, draining, idle', if_true, complete] at reached'
      simp only [is, turnShutdown, draining, idle', if_true, complete]
      exact beginFlush_of_reached reached'
    · -- something is left, so the poll is the one at which the shutdown expires
      have busy' : ¬e.asked.isIdle = true := by rw [isIdle_asked, busy]; decide
      have expires : e.poll p = e.asked.expire p.shutdown := by
        simp only [turnShutdown, draining, if_neg busy'] at is reached'
        by_cases now : e.asked.boundReached p.shutdown.bound = true
        · rw [is, if_pos now]
        · rw [if_neg now] at reached'
          exact absurd reached' now
      have expired : Expired e e' := by
        show Expired e (e.poll p).1
        rw [expires]
        exact expired_expire started p.shutdown
      have housed' : e'.Housed := by
        have next : (e.perform p.move).Housed :=
          (changes_perform (allows_move fits) (Licence.suits_free e p.move)).keeps
            (fun _ _ => Housed.change) housed
        rwa [perform_move] at next
      refine ⟨?_, expired, fun later rest => ⟨?_, ?_⟩⟩
      · rw [expires, ← stuck, ← stuck_asked]
        rfl
      · intro run mem now found
        obtain ⟨behind, owes, housed''⟩ := expired.later housed' rest
        refine ⟨behind.waiters housed' mem found, ?_⟩
        rw [← (mem_of_run? found).2] at found
        exact endsOnce_of_isShut behind.shut owes housed'' found
      · intro q draining idle
        exact poll_of_isIdle (expired.isClosing_later rest) idle draining
  · have phase : e.phase = .notStarted ∨ e.phase = .stopped := by
      cases phase : e.phase <;> simp [phase] at started ⊢
    refine ⟨fun idle => poll_of_reached phase idle fits reached, fun busy => ?_⟩
    rw [calm phase] at busy
    cases busy

/-- A task has a run with one caller aboard and another folded into the owed run.  A shutdown whose
deadline has passed names the task and tells the second caller; when the run ends, the first one is
told how. -/
theorem expired_shutdown_says_what_is_stuck_folded :
    let e := (create {} []).after foldedHistory
    let p := Poll.asks (.deadline .zero) .zero
    (create {} []).admits foldedHistory = true ∧ p.fits e = true ∧
    (e.poll p).1.boundReached p.shutdown.bound = true ∧
    (e.poll p).2 = .error (.error (.graceExceeded .zero ["<unnamed>"])) ∧
    (e.poll p).1.delivery? ⟨0, 1⟩ = some (.answered (.error .closed)) ∧
    ((e.poll p).1.finish ⟨0, 1⟩ .succeeded).delivery? ⟨0, 0⟩ = some (.answered (.ok ())) := by
  intro e p
  have admitted : (create {} []).admits foldedHistory = true := by decide
  have fits : p.fits e = true := rfl
  have reached : (e.poll p).1.boundReached p.shutdown.bound = true := by decide
  obtain ⟨-, expires⟩ :=
    expired_shutdown_says_what_is_stuck {} [] foldedHistory admitted p fits reached
  obtain ⟨result, expired, later⟩ := expires (by decide)
  obtain ⟨task, mem, parked⟩ : ∃ task ∈ e.tasks, ⟨0, 1⟩ ∈ task.parked :=
    ⟨_, List.mem_singleton_self _, List.mem_singleton_self _⟩
  obtain ⟨run, mem', found, aboard⟩ : ∃ run ∈ (e.poll p).1.runs,
      (e.poll p).1.run? run.id = some run ∧ run.id = ⟨0, 1⟩ ∧ run.waiters = [⟨0, 0⟩] :=
    ⟨_, List.mem_singleton_self _, rfl, rfl, rfl⟩
  have ends := ((later [] rfl).1 run mem' run found).2 .succeeded
  refine ⟨admitted, fits, reached, result, expired.told task mem _ parked, ?_⟩
  rw [← aboard.1]
  exact ends.told ⟨0, 0⟩ (by rw [aboard.2]; exact List.mem_singleton_self _)

end Engine

end TaskEngine
