/-
  TaskEngine/Proofs/Rejections.lean
  =================================
  **Which errors say that no run was made.**

  A request that is refused gets a rejection for an answer (`Engine.isRejection_of_request`).  But one
  of the rejections, that the engine is closed, is also what callers are told whose request was
  admitted: if their run ends in a cancellation behind a shut gate, or if the run that they were folded
  into does not begin any more.  No other rejection is told to them (`Engine.closed_of_told`).

  What a caller gets to know comes to it through its request, through a wait that it looks at, or
  through a call that waits for it with a limit (`World.Ticket`).  Calls are known by their number, and
  a call that waits for a run is answered with what its caller was told, or with the end of its patience
  (`World.Awaits`).

  So an error is a rejection exactly if the request was refused or if it says that the engine is closed
  (`World.rejected_iff_refused_or_closed`), and a caller that is told so after a cancellation takes a run
  that has begun for one that has not (`World.cancelled_run_looks_refused`).
-/
import TaskEngine.Proofs.Acts
import TaskEngine.Proofs.Debts
import TaskEngine.Session

namespace TaskEngine

namespace Outcome

/-- How a run ended is told as a rejection only if it was cancelled behind a closed gate. -/
theorem closed_of_waitResult {closing : Bool} {outcome : Outcome} {err : RequestError}
    (told : outcome.waitResult closing = .error err) (rejects : err.isRejection = true) :
    err = .closed ∧ closing = true := by
  cases outcome with
  | succeeded => cases told
  | panicked info =>
      cases told
      cases rejects
  | failed e =>
      obtain rfl := Except.error.inj told
      split at rejects
      · rename_i cancelled
        exact ⟨if_pos cancelled, (Bool.and_eq_true_iff.mp cancelled).1⟩
      · cases rejects
  | canceled e =>
      obtain rfl := Except.error.inj told
      split at rejects
      · rename_i cancelled
        exact ⟨if_pos cancelled, cancelled⟩
      · cases rejects

end Outcome

theorem TaskRecord.isRejection_of_refusal? {task : TaskRecord} {err : RequestError}
    (refused : task.refusal? = some err) : err.isRejection = true := by
  unfold refusal? at refused
  split at refused <;> cases refused <;> rfl

namespace Engine

variable {e e' : Engine} {v : WaiterId} {err : RequestError}

/-! ## 1. Refused requests -/

theorem isRejection_of_refusal? (refused : e.refusal? = some err) : err.isRejection = true := by
  unfold refusal? at refused
  split at refused
  · split at refused <;> cases refused
    rfl
  · cases refused
    rfl
  · cases refused
    rfl
  · cases refused
    rfl

/-- A request that is refused gets a rejection for an answer. -/
theorem isRejection_of_request {t : TaskId} {waiter : Option WaiterId}
    (refused : (e.request t waiter).2 = .error err) : err.isRejection = true := by
  simp only [request, consider] at refused
  split at refused
  · rename_i refusal _ is
    obtain rfl := Except.error.inj refused
    exact isRejection_of_refusal? is
  · cases refused
    rfl
  · rename_i task _ _
    split at refused
    · rename_i refusal is
      obtain rfl := Except.error.inj refused
      exact TaskRecord.isRejection_of_refusal? is
    · unfold place at refused
      split at refused
      · split at refused <;> cases refused
        rfl
      · cases refused

theorem isRejection_of_trigger {name : String} (refused : (e.trigger name).2 = .error err) :
    err.isRejection = true := by
  unfold trigger at refused
  split at refused
  · cases refused
    rfl
  · exact isRejection_of_request refused

theorem isRejection_of_requestWaiting {t : TaskId}
    (refused : (e.requestWaiting t).2.2 = .error err) : err.isRejection = true :=
  isRejection_of_request (e := e.drawSerial t) refused

/-! ## 2. What callers are told -/

theorem mail_request (e : Engine) (t : TaskId) (waiter : Option WaiterId) :
    (e.request t waiter).1.mail = e.mail := by
  have step := e.request_step t waiter
  generalize e.request t waiter = answer at step ⊢
  cases step with
  | refused err => rfl
  | skipped task known full => rfl
  | merged task known admits willing full overlap => rfl
  | started task known admits willing room =>
      rw [beginRun_eq known]
      rfl

theorem mail_finish (e : Engine) (id : RunId) (outcome : Outcome) :
    e.mail ⊆ (e.finish id outcome).mail := by
  have concluded (run : Run) (task : TaskRecord) : e.mail ⊆ (e.conclude run task outcome).mail :=
    List.subset_append_right _ _
  have step := e.finish_step id outcome
  generalize e.finish id outcome = after at step ⊢
  cases step with
  | unknown => exact fun _ mem => mem
  | last run task found known settled => exact concluded run task
  | closed run task found known owed closing =>
      exact fun _ mem => List.mem_append_right _ (concluded run task mem)
  | again run task found known owed admits =>
      rw [beginRun_eq (known_conclude known outcome)]
      exact concluded run task

/-- What callers were told is not taken back. -/
theorem Change.mail {l : Licence} (change : Change l e e') : e.mail ⊆ e'.mail := by
  cases change with
  | calm calm => exact calm.alike.mail ▸ fun _ mem => mem
  | register spec status accepted room fresh => exact fun _ mem => mem
  | stop idle covers => exact List.subset_append_right _ _
  | drain closing covers => exact List.subset_append_right _ _
  | request t => exact mail_request e t none ▸ fun _ mem => mem
  | requestWaiting t covers =>
      rw [requestWaiting_fst, mail_request]
      exact fun _ mem => mem
  | detach w leaves => exact fun _ mem => mem
  | finish id outcome covers => exact mail_finish e id outcome
  | abandon id refuses covers =>
      unfold Engine.abandon
      split
      · exact List.subset_append_right _ _
      · exact fun _ mem => mem

theorem Leads.mail (h : Leads e e') : e.mail ⊆ e'.mail :=
  h.keeps (P := fun e' => e.mail ⊆ e'.mail)
    (fun _ _ _ change h => List.Subset.trans h change.mail) fun _ mem => mem

theorem mem_mail_of_delivery? {d : Delivery} (found : e.delivery? v = some d) : (v, d) ∈ e.mail := by
  obtain ⟨newer, older, mail, -⟩ := List.lookup_eq_some_iff.mp found
  exact mail ▸ List.mem_append_right _ List.mem_cons_self

theorem Answers.only_closed {m : Move} {d : Delivery} (answers : Answers e m v d)
    (told : d.result = .error err) (rejects : err.isRejection = true) : err = .closed := by
  cases answers with
  | ended found aboard => exact (Outcome.closed_of_waitResult told rejects).1
  | closed same known parked closing => exact (Except.error.inj told).symm
  | drained shuts known parked => exact (Except.error.inj told).symm
  | dropped found aboard => exact (Except.error.inj told).symm

section Told

variable {config : Config} {subscribers : List Subscriber} {moves : List Move}

/-- The only rejection that callers are told whose request was admitted is that the engine is closed. -/
theorem closed_of_told (admitted : (create config subscribers).admits moves = true) {d : Delivery}
    (mem : (v, d) ∈ ((create config subscribers).after moves).mail) (told : d.result = .error err)
    (rejects : err.isRejection = true) : err = .closed := by
  obtain ⟨before, m, rest, split, absent, present⟩ := origin_of_after
    (P := fun e => (v, d) ∈ e.mail) List.not_mem_nil mem
  rw [split, admits_append, admits_cons] at admitted
  have housed := keeps_after (fun _ _ _ => Housed.change) admitted.1
    (housed_create config subscribers)
  exact (((covers_perform housed admitted.2.1).told v d present).resolve_left absent).only_closed
    told rejects

/-- A gate that is not open while somebody is parked is shut. -/
theorem isShut_of_parked {t : TaskId} {task : TaskRecord} (quiet : e.Quiet)
    (known : e.tasks[t]? = some task) (parked : v ∈ task.parked) (closing : e.isOpen = false) :
    e.isShut = true := by
  refine isShut_of_begun (fun fresh => ?_) closing
  rw [(quiet (.inl fresh)).2 task (List.mem_of_getElem? known)] at parked
  cases parked

/-- A shutdown that has taken a turn finds the gate shut. -/
theorem isShut_of_isShutdown {m : Move} (shuts : m.isShutdown = true) (allowed : e.allows m = true) :
    (e.perform m).isShut = true := by
  cases m with
  | shutdown bound grace => exact isShut_of_isClosing (isClosing_shutdown ..)
  | awaitShutdown s => exact isShut_of_isClosing ((leads_perform allowed).isClosing allowed)
  | _ => cases shuts

/-- Behind which gate a caller is told that the engine is closed. -/
theorem WasTold.isShut {result : WaitResult} (admitted : (create config subscribers).admits moves = true)
    (told : WasTold (create config subscribers) moves v result) (closed : result = .error .closed) :
    ((create config subscribers).after moves).isShut = true := by
  have shutAfter {before rest : List Move} {m : Move} (split : moves = before ++ m :: rest)
      (shut : (((create config subscribers).after before).perform m).isShut = true) :
      ((create config subscribers).after moves).isShut = true := by
    rw [split, admits_append, admits_cons] at admitted
    rw [split, after_append, after_cons]
    exact (sealed_after admitted.2.2 shut).shut
  have quiet {before rest : List Move} {m : Move} (split : moves = before ++ m :: rest) :
      ((create config subscribers).after before).Quiet := by
    rw [split, admits_append] at admitted
    exact keeps_after (fun _ _ _ => Quiet.change) admitted.1 (quiet_create config subscribers)
  cases told with
  | ended split found aboard boarded =>
      have closing := (Outcome.closed_of_waitResult closed rfl).2
      rw [Bool.not_eq_true'] at closing
      have shut := isShut_of_run? (quiet split) found closing
      exact shutAfter split (sealed_finish shut _ _).shut
  | closed split same known parked closing =>
      have shut := isShut_of_parked (quiet split) known parked closing
      exact shutAfter split (sealed_finish shut _ _).shut
  | drained split shuts known parked =>
      rw [split, admits_append, admits_cons] at admitted
      exact shutAfter split (isShut_of_isShutdown shuts admitted.2.1)

end Told

end Engine

namespace World

open Engine

variable {w w' w'' : World}

/-! ## 3. Calls under way -/

theorem mem_of_call? {id : Nat} {c : Call} (found : w.call? id = some c) : c ∈ w.calls ∧ c.id = id :=
  ⟨List.mem_of_find?_eq_some found, by simpa using List.find?_some found⟩

/-- What one step makes of the stage of a call. -/
inductive StageStep (e : Engine) : CallStage → CallStage → Prop where
  | same (stage : CallStage) : StageStep e stage stage
  | looked (waiter : WaiterId) (limit : WaitLimit) :
      StageStep e (.waiting waiter limit) (waitStage e waiter limit)
  | turned (s : Shutdown) (now : Instant) (state : ShutdownState) :
      StageStep e (.shuttingDown s) (shutdownStage now state)

/-- What one step does to the calls under way: they keep their numbers, and new ones have new numbers. -/
structure KeepsCalls (w w' : World) : Prop where
  issued : w.nextCall ≤ w'.nextCall
  calls : ∀ c' ∈ w'.calls,
    (∃ c ∈ w.calls, c.id = c'.id ∧ StageStep w.engine c.stage c'.stage) ∨
    w.nextCall ≤ c'.id ∧ c'.id < w'.nextCall

theorem keepsCalls_of_subset (calls : ∀ c' ∈ w'.calls, ∃ c ∈ w.calls, c.id = c'.id ∧ c.stage = c'.stage)
    (nextCall : w'.nextCall = w.nextCall) : KeepsCalls w w' := by
  refine ⟨Nat.le_of_eq nextCall.symm, fun c' mem => .inl ?_⟩
  obtain ⟨c, old, id, stage⟩ := calls c' mem
  exact ⟨c, old, id, stage ▸ .same _⟩

theorem keepsCalls_of_eq (calls : w'.calls = w.calls) (nextCall : w'.nextCall = w.nextCall) :
    KeepsCalls w w' :=
  keepsCalls_of_subset (fun c mem => ⟨c, calls ▸ mem, rfl, rfl⟩) nextCall

theorem keepsCalls_openCall (w : World) (engine : Engine) (stage : CallStage) (blocking : Bool) :
    KeepsCalls w ({ w with engine }.openCall stage blocking).1 := by
  refine ⟨Nat.le_succ _, fun c mem => ?_⟩
  rcases List.mem_append.mp mem with old | new
  · exact .inl ⟨c, old, rfl, .same _⟩
  · obtain rfl := List.mem_singleton.mp new
    exact .inr ⟨Nat.le_refl _, Nat.lt_succ_self _⟩

theorem keepsCalls_setStage {id : Nat} {c : Call} (found : w.call? id = some c) (engine : Engine)
    {stage : CallStage} (steps : StageStep w.engine c.stage stage) :
    KeepsCalls w ({ w with engine }.setStage id stage) := by
  refine ⟨Nat.le_refl _, fun c' mem => .inl ?_⟩
  obtain ⟨old, oldMem, rfl⟩ := List.mem_map.mp mem
  split
  · rename_i same
    obtain ⟨mem, own⟩ := mem_of_call? found
    exact ⟨c, mem, own.trans same.symm, steps⟩
  · exact ⟨old, oldMem, rfl, .same _⟩

theorem keepsCalls_removeCall (w : World) (engine : Engine) (id : Nat) :
    KeepsCalls w ({ w with engine }.removeCall id) :=
  keepsCalls_of_subset (fun c mem => ⟨c, (List.mem_filter.mp mem).1, rfl, rfl⟩) rfl

theorem keepsCalls_callShutdown (w : World) (token : Option Token) (blocking : Bool) :
    KeepsCalls w (w.callShutdown token blocking).1 := by
  cases token <;> exact keepsCalls_openCall ..

theorem keepsCalls_callWait (w : World) (t : TaskId) (limit : WaitLimit) :
    KeepsCalls w (w.callWait t limit).1 := by
  unfold callWait
  split <;> exact keepsCalls_openCall ..

theorem keepsCalls_turnCall (w : World) (id : Nat) : KeepsCalls w (w.turnCall id) := by
  unfold turnCall
  cases found : w.call? id with
  | none => exact keepsCalls_of_eq rfl rfl
  | some c =>
      dsimp only
      split
      · unfold dropCall
        split <;> exact keepsCalls_removeCall ..
      · split
        · rename_i s stage
          exact keepsCalls_setStage found _ (stage ▸ .turned ..)
        · rename_i waiter limit stage
          exact keepsCalls_setStage found _ (stage ▸ .looked ..)
        · exact keepsCalls_of_eq rfl rfl

theorem keepsCalls_turn (w : World) (p : Process) : KeepsCalls w (turn p w) := by
  cases p with
  | run id =>
      have deeds := deeds_turnRun w id
      exact keepsCalls_of_eq deeds.follows.2 deeds.nextCall
  | call id => exact keepsCalls_turnCall w id
  | sentinel id =>
      have goes := goes_turnSentinel w id
      exact keepsCalls_of_eq goes.calls goes.nextCall
  | _ => exact keepsCalls_of_eq rfl rfl

theorem Step.keepsCalls (step : Step w w') : KeepsCalls w w' := by
  cases step with
  | machine step =>
      cases step with
      | turn p live able => exact keepsCalls_turn w p
      | clock now later => exact keepsCalls_of_eq rfl rfl
  | add spec =>
      unfold World.add
      split <;> exact keepsCalls_of_eq rfl rfl
  | callShutdown token blocking => exact keepsCalls_callShutdown w token blocking
  | callWait t limit => exact keepsCalls_callWait w t limit
  | callWaitByName name limit =>
      unfold World.callWaitByName
      split
      · exact keepsCalls_callWait ..
      · exact keepsCalls_openCall w w.engine ..
  | turnCall id => exact keepsCalls_turnCall w id
  | abortCall id =>
      refine keepsCalls_of_subset (fun c mem => ?_) rfl
      obtain ⟨old, oldMem, rfl⟩ := List.mem_map.mp mem
      exact ⟨old, oldMem, by split <;> rfl, by split <;> rfl⟩
  | removeCall id => exact keepsCalls_removeCall w w.engine id
  | _ => exact keepsCalls_of_eq rfl rfl

/-- The numbers of the calls under way were given out. -/
def Issued (w : World) : Prop := ∀ c ∈ w.calls, c.id < w.nextCall

theorem Issued.step (h : w.Issued) (keeps : KeepsCalls w w') : w'.Issued := by
  intro c' mem
  rcases keeps.calls c' mem with ⟨c, old, same, -⟩ | ⟨-, new⟩
  · exact same ▸ Nat.lt_of_lt_of_le (h c old) keeps.issued
  · exact new

/-- The call with this number was made, and if it is under way it stands at a stage like this. -/
structure Tracks (n : Nat) (P : Engine → CallStage → Prop) (w : World) : Prop where
  issued : n < w.nextCall
  stands : ∀ c ∈ w.calls, c.id = n → P w.engine c.stage

/-- What a call keeps through the steps that it takes, it keeps whatever happens. -/
theorem Tracks.later {n : Nat} {P : Engine → CallStage → Prop}
    (keeps : ∀ (e e' : Engine) (stage stage' : CallStage), e.Leads e' → StageStep e stage stage' →
      P e stage → P e' stage')
    (orderly : w.Orderly) (later : Relation.ReflTransGen Step w w') (h : Tracks n P w) :
    Tracks n P w' := by
  suffices both : w'.Orderly ∧ Tracks n P w' from both.2
  induction later with
  | refl => exact ⟨orderly, h⟩
  | tail _ step ih =>
      obtain ⟨orderly, tracks⟩ := ih
      refine ⟨step.orderly orderly, Nat.lt_of_lt_of_le tracks.issued step.keepsCalls.issued, ?_⟩
      rintro c' mem rfl
      rcases step.keepsCalls.calls c' mem with ⟨c, old, same, steps⟩ | ⟨new, -⟩
      · exact keeps _ _ _ _ (step.leads orderly) steps (tracks.stands c old same)
      · exact absurd tracks.issued (Nat.not_lt.mpr new)

/-- A call that was just made is tracked from its first stage on. -/
theorem Issued.tracks (h : w.Issued) {P : Engine → CallStage → Prop} {engine : Engine}
    {stage : CallStage} (blocking : Bool) (first : P engine stage) :
    Tracks w.nextCall P ({ w with engine }.openCall stage blocking).1 := by
  refine ⟨Nat.lt_succ_self _, fun c mem same => ?_⟩
  rcases List.mem_append.mp mem with old | new
  · exact absurd same (Nat.ne_of_lt (h c old))
  · obtain rfl := List.mem_singleton.mp new
    exact first

/-! ### Calls that wait for a run -/

/-- Where a call stands that waits for the caller `v`: it still waits, it was answered with what `v` was
told, or its patience came to an end. -/
inductive Awaits (v : WaiterId) (e : Engine) : CallStage → Prop where
  | waiting (limit : WaitLimit) : Awaits v e (.waiting v limit)
  | told (time : Instant) {d : Delivery} (mem : (v, d) ∈ e.mail) :
      Awaits v e (.answered time (.wait d.result))
  | timedOut (time : Instant) (limit : Duration) :
      Awaits v e (.answered time (.wait (.error (.waitTimeout limit))))
  | canceled (time : Instant) : Awaits v e (.answered time (.wait (.error .waitCanceled)))

theorem awaits_waitStage (e : Engine) (v : WaiterId) (limit : WaitLimit) :
    Awaits v e (waitStage e v limit) := by
  unfold waitStage
  split
  · rename_i d found
    exact .told e.now (mem_mail_of_delivery? found)
  · split
    · split
      · exact .timedOut ..
      · exact .waiting _
    · split
      · exact .canceled _
      · exact .waiting _

theorem Awaits.leads {v : WaiterId} {e e' : Engine} {stage : CallStage} (h : Awaits v e stage)
    (leads : e.Leads e') : Awaits v e' stage := by
  cases h with
  | waiting limit => exact .waiting limit
  | told time mem => exact .told time (leads.mail mem)
  | timedOut time limit => exact .timedOut time limit
  | canceled time => exact .canceled time

theorem Awaits.step {v : WaiterId} {e e' : Engine} {stage stage' : CallStage} (leads : e.Leads e')
    (step : StageStep e stage stage') (h : Awaits v e stage) : Awaits v e' stage' := by
  cases step with
  | same stage => exact h.leads leads
  | looked waiter limit =>
      cases h
      exact (awaits_waitStage e v limit).leads leads
  | turned s now state => cases h

/-- The error that a call ends with is what its caller was told, or that its patience came to an end. -/
theorem Awaits.error {v : WaiterId} {e : Engine} {time : Instant} {err : RequestError}
    (h : Awaits v e (.answered time (.wait (.error err)))) :
    (∃ d, (v, d) ∈ e.mail ∧ d.result = .error err) ∨ err.isRejection = false := by
  generalize is : CallStage.answered time (.wait (.error err)) = stage at h
  cases h with
  | waiting limit => cases is
  | told time mem =>
      injection is with _ same
      injection same with same
      exact .inl ⟨_, mem, same.symm⟩
  | timedOut time limit =>
      cases is
      exact .inr rfl
  | canceled time =>
      cases is
      exact .inr rfl

theorem stage_of_callResult? {n : Nat} {time : Instant} {result : CallResult}
    (found : w.callResult? n = some (time, result)) :
    ∃ c ∈ w.calls, c.id = n ∧ c.stage = .answered time result := by
  obtain ⟨c, is, stage⟩ := Option.bind_eq_some_iff.mp found
  obtain ⟨mem, own⟩ := mem_of_call? is
  refine ⟨c, mem, own, ?_⟩
  split at stage
  · rename_i answered
    cases stage
    exact answered
  · cases stage
  · cases stage

/-- A call that was answered with an error at once. -/
def IsAnswered (err : RequestError) (_ : Engine) (stage : CallStage) : Prop :=
  ∃ time, stage = .answered time (.wait (.error err))

theorem IsAnswered.step {err : RequestError} {e e' : Engine} {stage stage' : CallStage}
    (step : StageStep e stage stage') (h : IsAnswered err e stage) : IsAnswered err e' stage' := by
  obtain ⟨time, rfl⟩ := h
  cases step
  exact ⟨time, rfl⟩

section CallWait

variable {t : TaskId} {limit : WaitLimit}

theorem Issued.tracks_refused (h : w.Issued) {err : RequestError}
    (refused : (w.engine.requestWaiting t).2.2 = .error err) :
    Tracks (w.callWait t limit).2 (IsAnswered err) (w.callWait t limit).1 := by
  unfold callWait
  generalize w.engine.requestWaiting t = answer at refused
  obtain ⟨engine, waiter, result⟩ := answer
  obtain rfl : result = .error err := refused
  exact h.tracks false ⟨w.now, rfl⟩

theorem Issued.tracks_admitted (h : w.Issued) {taken : Admission}
    (admitted : (w.engine.requestWaiting t).2.2 = .ok taken) :
    Tracks (w.callWait t limit).2 (Awaits (w.engine.nextWaiter t)) (w.callWait t limit).1 := by
  have own : (w.engine.requestWaiting t).2.1 = w.engine.nextWaiter t := rfl
  unfold callWait
  generalize w.engine.requestWaiting t = answer at admitted own
  obtain ⟨engine, waiter, result⟩ := answer
  obtain rfl : result = .ok taken := admitted
  obtain rfl : waiter = w.engine.nextWaiter t := own
  exact h.tracks false ((awaits_waitStage engine _ limit).leads
    (leadsRoutinely_leaveIfAnswered ..).leads)

end CallWait

/-! ## 4. Requests and what they yield -/

/-- What a caller has in hand once it has asked for a run. -/
inductive Ticket where
  /-- Nothing but the answer to its request. -/
  | answer (admission : AdmissionResult)
  /-- A wait that it looks at. -/
  | wait (held : RunWait)
  /-- A call that waits for it with a limit. -/
  | call (id : Nat)

end World

/-- The wait of a caller whose request was answered like this. -/
def RunWait.ofAdmission (waiter : WaiterId) : AdmissionResult → RunWait
  | .ok _ => .waiting waiter
  | .error err => .rejected err

/-- That is what a session keeps for it. -/
theorem Session.wait_eq (s : Session) (t : TaskId) (id : String) :
    s.wait t id = (s.askEngine (·.requestWaiting t)).1.keep id
      (.wait (.ofAdmission (s.engine.nextWaiter t) (s.engine.requestWaiting t).2.2)) := by
  have waiter : (s.askEngine (·.requestWaiting t)).2.1 = s.engine.nextWaiter t := rfl
  have answer : (s.askEngine (·.requestWaiting t)).2.2 = (s.engine.requestWaiting t).2.2 := rfl
  rw [wait, ← waiter, ← answer]
  split <;> rename_i asked <;> rw [asked] <;> rfl

/-- What becomes of a wait that is looked at again and again. -/
def RunWait.afterLooks (held : RunWait) (looks : List Engine) : RunWait :=
  looks.foldl (fun held e => (Session.lookAtWait e held).1) held

theorem RunWait.afterLooks_rejected (err : RequestError) (looks : List Engine) :
    (rejected err).afterLooks looks = rejected err ∨ (rejected err).afterLooks looks = spent := by
  have stays (looks : List Engine) : spent.afterLooks looks = spent := by
    induction looks with
    | nil => rfl
    | cons e looks ih => exact ih
  cases looks with
  | nil => exact .inl rfl
  | cons e looks => exact .inr (stays looks)

theorem RunWait.afterLooks_waiting (v : WaiterId) (looks : List Engine) :
    (waiting v).afterLooks looks = waiting v ∨ (waiting v).afterLooks looks = delivered := by
  have stays (looks : List Engine) : delivered.afterLooks looks = delivered := by
    induction looks with
    | nil => rfl
    | cons e looks ih => exact ih
  induction looks with
  | nil => exact .inl rfl
  | cons e looks ih =>
      have looked : (waiting v).afterLooks (e :: looks) =
          (Session.lookAtWait e (waiting v)).1.afterLooks looks := rfl
      rw [looked]
      unfold Session.lookAtWait
      dsimp only
      split
      · exact .inr (stays looks)
      · exact ih

namespace World

open Engine

variable {w w' w'' : World} {err : RequestError}

/-- The caller of the ticket gets to know an error. -/
def Ticket.Yields (w : World) (err : RequestError) : Ticket → Prop
  | answer admission => admission = .error err
  | wait held => ∃ looks, (Session.lookAtWait w.engine (held.afterLooks looks)).2 = .waited (.error err)
  | call id => ∃ time, w.callResult? id = some (time, .wait (.error err))

/-- A caller asks for a run, by the handle of a task or by a name, and waits for it or not: how the
request is answered, what the caller has in hand then, and as whom it waits. -/
inductive Asks : World → World → AdmissionResult → Ticket → Option WaiterId → Prop where
  | request (w : World) (t : TaskId) :
      Asks w { w with engine := (w.engine.request t none).1 } (w.engine.request t none).2
        (.answer (w.engine.request t none).2) none
  | trigger (w : World) (name : String) :
      Asks w { w with engine := (w.engine.trigger name).1 } (w.engine.trigger name).2
        (.answer (w.engine.trigger name).2) none
  | wait (w : World) (t : TaskId) :
      Asks w { w with engine := (w.engine.requestWaiting t).1 } (w.engine.requestWaiting t).2.2
        (.wait (.ofAdmission (w.engine.nextWaiter t) (w.engine.requestWaiting t).2.2))
        (some (w.engine.nextWaiter t))
  | callWait (w : World) (t : TaskId) (limit : WaitLimit) :
      Asks w (w.callWait t limit).1 (w.engine.requestWaiting t).2.2 (.call (w.callWait t limit).2)
        (some (w.engine.nextWaiter t))
  | callWaitByName (w : World) (name : String) (limit : WaitLimit) {t : TaskId}
      (found : w.engine.lookup? name = some t) :
      Asks w (w.callWaitByName name limit).1 (w.engine.requestWaiting t).2.2
        (.call (w.callWaitByName name limit).2) (some (w.engine.nextWaiter t))
  | callUnknown (w : World) (name : String) (limit : WaitLimit)
      (unknown : w.engine.lookup? name = none) :
      Asks w (w.callWaitByName name limit).1 (.error (.notFound name))
        (.call (w.callWaitByName name limit).2) none

theorem callWaitByName_of_found {name : String} {t : TaskId}
    (found : w.engine.lookup? name = some t) (limit : WaitLimit) :
    w.callWaitByName name limit = w.callWait t limit := by
  rw [callWaitByName, found]

theorem Tracks.yields_refused {n : Nat} {refusal : RequestError} (orderly : w'.Orderly)
    (later : Relation.ReflTransGen Step w' w'') (tracks : Tracks n (IsAnswered refusal) w')
    (yields : (Ticket.call n).Yields w'' err) : err = refusal := by
  obtain ⟨time, found⟩ := yields
  obtain ⟨c, mem, own, stage⟩ := stage_of_callResult? found
  have tracked := tracks.later (fun _ _ _ _ _ step h => h.step step) orderly later
  obtain ⟨time', is⟩ := tracked.stands c mem own
  rw [stage] at is
  cases is
  rfl

theorem Tracks.yields_admitted {n : Nat} {v : WaiterId} (orderly : w'.Orderly)
    (later : Relation.ReflTransGen Step w' w'') (tracks : Tracks n (Awaits v) w')
    (yields : (Ticket.call n).Yields w'' err) :
    (∃ d, (v, d) ∈ w''.engine.mail ∧ d.result = .error err) ∨ err.isRejection = false := by
  obtain ⟨time, found⟩ := yields
  obtain ⟨c, mem, own, stage⟩ := stage_of_callResult? found
  have tracked := tracks.later (fun _ _ _ _ leads step h => h.step leads step) orderly later
  exact (stage ▸ tracked.stands c mem own).error

theorem Asks.step {admission : AdmissionResult} {ticket : Ticket} {caller? : Option WaiterId}
    (asks : Asks w w' admission ticket caller?) : Step w w' := by
  cases asks with
  | request t => exact .request w t
  | trigger name => exact .trigger w name
  | wait t => exact .requestWaiting w t
  | callWait t limit => exact .callWait w t limit
  | callWaitByName name limit found => exact .callWaitByName w name limit
  | callUnknown name limit unknown => exact .callWaitByName w name limit

section Asked

variable {ticket : Ticket} {caller? : Option WaiterId} (orderly : w.Orderly) (issued : w.Issued)
  (later : Relation.ReflTransGen Step w' w'') (yields : ticket.Yields w'' err)

include orderly issued later yields

/-- A caller whose request is refused gets to know nothing but rejections. -/
theorem Asks.yields_refused {refusal : RequestError}
    (asks : Asks w w' (.error refusal) ticket caller?) : err.isRejection = true := by
  have orderly' := asks.step.orderly orderly
  generalize is : Except.error refusal = admission at asks
  cases asks with
  | request t => exact isRejection_of_request yields
  | trigger name => exact isRejection_of_trigger yields
  | wait t =>
      rw [← is] at yields
      obtain ⟨looks, found⟩ := yields
      rcases RunWait.afterLooks_rejected refusal looks with rejected | spent
      · rw [RunWait.ofAdmission, rejected] at found
        cases found
        exact isRejection_of_requestWaiting is.symm
      · rw [RunWait.ofAdmission, spent] at found
        cases found
        rfl
  | callWait t limit =>
      rw [(issued.tracks_refused is.symm).yields_refused orderly' later yields]
      exact isRejection_of_requestWaiting is.symm
  | callWaitByName name limit found =>
      rw [callWaitByName_of_found found] at orderly' later yields
      rw [(issued.tracks_refused is.symm).yields_refused orderly' later yields]
      exact isRejection_of_requestWaiting is.symm
  | callUnknown name limit unknown =>
      have tracks : Tracks (w.callWaitByName name limit).2 (IsAnswered (.notFound name))
          (w.callWaitByName name limit).1 := by
        rw [World.callWaitByName, unknown]
        exact issued.tracks false ⟨w.now, rfl⟩
      rw [tracks.yields_refused orderly' later yields]
      rfl

/-- A caller whose request is admitted gets to know what it is told, or that it has lost patience. -/
theorem Asks.yields_admitted {taken : Admission} (asks : Asks w w' (.ok taken) ticket caller?) :
    ∃ v, caller? = some v ∧
      ((∃ d, (v, d) ∈ w''.engine.mail ∧ d.result = .error err) ∨ err.isRejection = false) := by
  have orderly' := asks.step.orderly orderly
  generalize is : Except.ok taken = admission at asks
  cases asks with
  | request t => cases is.trans yields
  | trigger name => cases is.trans yields
  | wait t =>
      refine ⟨_, rfl, .inl ?_⟩
      rw [← is] at yields
      obtain ⟨looks, found⟩ := yields
      rcases RunWait.afterLooks_waiting (w.engine.nextWaiter t) looks with waits | delivered
      · rw [RunWait.ofAdmission, waits] at found
        unfold Session.lookAtWait at found
        dsimp only at found
        split at found
        · rename_i d delivery
          injection found with same
          exact ⟨d, mem_mail_of_delivery? delivery, same⟩
        · cases found
      · rw [RunWait.ofAdmission, delivered] at found
        cases found
  | callWait t limit =>
      exact ⟨_, rfl, (issued.tracks_admitted is.symm).yields_admitted orderly' later yields⟩
  | callWaitByName name limit found =>
      rw [callWaitByName_of_found found] at orderly' later yields
      exact ⟨_, rfl, (issued.tracks_admitted is.symm).yields_admitted orderly' later yields⟩
  | callUnknown name limit unknown => cases is

end Asked

section Reached

variable {config : Config} {subscribers : List Subscriber} {hook : Option Hook} {handler : Handler}

theorem orderly_issued
    (reached : Relation.ReflTransGen Step (create config subscribers hook handler) w) :
    w.Orderly ∧ w.Issued := by
  induction reached with
  | refl =>
      exact ⟨orderly_create config subscribers hook handler,
        fun _ mem => absurd mem List.not_mem_nil⟩
  | tail _ step ih => exact ⟨step.orderly ih.1, ih.2.step step.keepsCalls⟩

/-- **A rejection says that the request was refused, or that the engine is closed.**  Whatever has
happened and will happen, let a caller ask for a run, in any of the ways that there are, and get to know
an error at last.

The error is a rejection exactly if the request was refused, or if it is that the engine is closed.  If
that is what a caller gets to know whose request was admitted, it was told so: after its run had ended
in a cancellation behind a shut gate, or because the run that it was folded into did not begin any more.
So the gate is shut then.  As long as it is not, the rejections are those of refused requests.

Work that refuses calls is excepted from the last part: its callers are never told anything, and take
that to mean that the engine is closed. -/
theorem rejected_iff_refused_or_closed
    (reached : Relation.ReflTransGen Step (create config subscribers hook handler) w)
    {admission : AdmissionResult} {ticket : Ticket} {caller? : Option WaiterId}
    (asks : Asks w w' admission ticket caller?) (later : Relation.ReflTransGen Step w' w'')
    (yields : ticket.Yields w'' err) :
    (err.isRejection = true ↔ (∃ refusal, admission = .error refusal) ∨ err = .closed) ∧
    (∀ taken, admission = .ok taken → err = .closed → ∃ v, caller? = some v ∧
      ((∀ task, w''.engine.tasks[v.task]? = some task → task.spec.work.refusesCalls = false) →
        w''.engine.isShut = true ∧
        ∃ moves, (Engine.create config subscribers).admits moves = true ∧
          (Engine.create config subscribers).after moves = w''.engine ∧
          WasTold (Engine.create config subscribers) moves v (.error .closed))) := by
  obtain ⟨orderly, issued⟩ := orderly_issued reached
  obtain ⟨moves, possible, is⟩ := engine_has_history ((reached.tail asks.step).trans later)
  refine ⟨⟨fun rejects => ?_, ?_⟩, ?_⟩
  · cases admission with
    | error refusal => exact .inl ⟨refusal, rfl⟩
    | ok taken =>
        obtain ⟨v, -, ⟨d, mem, told⟩ | other⟩ := asks.yields_admitted orderly issued later yields
        · rw [← is] at mem
          exact .inr (closed_of_told possible mem told rejects)
        · cases rejects.symm.trans other
  · rintro (⟨refusal, rfl⟩ | rfl)
    · exact asks.yields_refused orderly issued later yields
    · rfl
  · rintro taken rfl rfl
    obtain ⟨v, own, ⟨d, mem, told⟩ | other⟩ := asks.yields_admitted orderly issued later yields
    · refine ⟨v, own, fun plays => ?_⟩
      rw [← is] at mem plays ⊢
      obtain ⟨result, rfl, wasTold⟩ := told_of_mem possible plays mem
      obtain rfl : result = .error .closed := told
      exact ⟨wasTold.isShut possible rfl, moves, possible, rfl, wasTold⟩
    · cases other

end Reached

/-- A task whose runs go on until they are cancelled. -/
def enduring : Spec := { work := .plays [[.untilCancel]], schedule := .onDemand, name := "long" }

def startedWorld : World :=
  (create {} [] none .logging).after [.add enduring, .start (.named "t")]

/-- A caller has asked for a run and waits for it, the run has begun, and the engine is shut down. -/
def cutWorld : World :=
  (startedWorld.perform (.requestWaiting 0)).after
    [.turn (.run ⟨0, 1⟩), .callShutdown none false, .turn (.run ⟨0, 1⟩)]

theorem startedWorld_reached : Relation.ReflTransGen Step (create {} [] none .logging) startedWorld :=
  steps_after (by decide) (by decide)

theorem cutWorld_later :
    Relation.ReflTransGen Step (startedWorld.perform (.requestWaiting 0)) cutWorld :=
  steps_after (by decide) (by decide)

/-- The caller gets to know that the engine is closed, although its run has begun. -/
theorem cutWorld_yields : (Ticket.wait (.waiting ⟨0, 0⟩)).Yields cutWorld .closed :=
  ⟨[], rfl⟩

theorem startedWorld_asks :
    Asks startedWorld (startedWorld.perform (.requestWaiting 0)) (.ok .started)
      (.wait (.waiting ⟨0, 0⟩)) (some ⟨0, 0⟩) :=
  .wait startedWorld 0

theorem rejected_iff_refused_or_closed_cut :
    cutWorld.engine.isShut = true ∧
    ∃ moves, (Engine.create {} []).admits moves = true ∧
      (Engine.create {} []).after moves = cutWorld.engine ∧
      WasTold (Engine.create {} []) moves ⟨0, 0⟩ (.error .closed) := by
  obtain ⟨-, told⟩ := rejected_iff_refused_or_closed startedWorld_reached startedWorld_asks
    cutWorld_later cutWorld_yields
  obtain ⟨v, own, shut⟩ := told .started rfl rfl
  obtain rfl := Option.some.inj own
  refine shut fun task known => ?_
  obtain rfl := Option.some.inj known
  rfl

/-- A rejection does not say that the request was refused: not even that the work has not been called. -/
theorem cancelled_run_looks_refused :
    (¬∀ (w w' w'' : World) (admission : AdmissionResult) (ticket : Ticket) (caller? : Option WaiterId)
        (err : RequestError), Relation.ReflTransGen Step (create {} [] none .logging) w →
        Asks w w' admission ticket caller? → Relation.ReflTransGen Step w' w'' →
        ticket.Yields w'' err → (err.isRejection = true ↔ ∃ refusal, admission = .error refusal)) ∧
    ∃ entry ∈ cutWorld.engine.journal, entry.note = .called .work ⟨0, 1⟩ := by
  refine ⟨fun claim => ?_, ?_⟩
  · obtain ⟨refusal, refused⟩ := (claim _ _ _ _ _ _ _ startedWorld_reached startedWorld_asks
      cutWorld_later cutWorld_yields).mp rfl
    cases refused
  · exact ⟨_, List.mem_of_getElem? (i := 5) rfl, rfl⟩

end World

end TaskEngine
