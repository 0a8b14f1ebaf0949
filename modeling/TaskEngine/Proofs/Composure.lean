/-
  TaskEngine/Proofs/Composure.lean
  ================================
  **Callbacks are complete, and cannot influence a run.**

  A callback that panics leaves a record of that in the log.  Nothing that a world does depends on
  such records, or on when callbacks panic.  So a world may be followed together with its calmed copy
  (`World.calmed`), in which no callback will panic and no record says that one did: the same acts
  are possible in both, and after the same act one is again the calmed copy of the other
  (`World.Calms`).

  Each function that worlds are made of has a lemma that says so.  What it does to the engine is a
  matter of views (`View.composure`), so the lemmas here are about callbacks, work and calls.
-/
import TaskEngine.Proofs.Acts
import TaskEngine.Proofs.Views

namespace TaskEngine

/-! ## 1. Calmed worlds -/

/-- Whether the note is the record of a callback that panicked. -/
def Note.isCallbackPanic : Note → Bool
  | .logged r => r.message == "callback panicked"
  | _ => false

theorem Hook.panicking_panicking (before after before' after' : List Nat) (hook : Hook) :
    (hook.panicking before after).panicking before' after' = hook.panicking before' after' := by
  cases hook <;> rfl

theorem Handler.panicking_panicking (panics panics' : Bool) (handler : Handler) :
    (handler.panicking panics).panicking panics' = handler.panicking panics' := by
  cases handler <;> rfl

/-- Everything but when hooks panic, and the records of that. -/
def View.composure : View where
  spec := (·.panicking [] [])
  sees _ := true
  reads n := !n.isCallbackPanic
  hooksOnly _ := rfl
  settled s := by
    simp [ResolvedSpec.panicking, Function.comp_def, Hook.panicking_panicking]

/-- The engine without the panics of hooks. -/
def Engine.calmed (e : Engine) : Engine :=
  { e with
    tasks := e.tasks.map fun t => { t with spec := t.spec.panicking [] [] }
    journal := e.journal.filter (!·.note.isCallbackPanic) }

/-- The world without the panics of callbacks: none will panic, and no record says that one did. -/
def World.calmed (w : World) : World :=
  { w with
    engine := w.engine.calmed
    hook := w.hook.map (·.panicking [] [])
    handler := w.handler.panicking false }

namespace View

theorem run_composure (r : Run) : composure.run r = r := by
  simp [View.run, composure]

theorem engine_composure (e : Engine) : composure.engine e = e.calmed := by
  rw [View.engine, List.map_congr_left fun r _ => run_composure r, List.map_id']
  simp [View.composure, View.task, Engine.calmed]

variable {e e' : Engine}

variable (h : composure.Same e e')

include h

theorem Same.delivery? (waiter : WaiterId) : e'.delivery? waiter = e.delivery? waiter :=
  h.symm.reads (·.delivery? waiter) fun e => by rw [engine_composure]; rfl

theorem Same.isCancelled (t : Token) : e'.isCancelled t = e.isCancelled t :=
  h.symm.reads (·.isCancelled t) fun _ => rfl

theorem Same.statusOf? (name : String) : e'.statusOf? name = e.statusOf? name := by
  have snapshot (e : Engine) : (composure.engine e).snapshot? = e.snapshot? := by
    funext t
    rw [engine_composure, Engine.snapshot?, Engine.calmed, List.getElem?_map, Option.map_map]
    rfl
  refine h.symm.reads (·.statusOf? name) fun e => ?_
  exact congrArg ((e.lookup? name).bind ·) (snapshot e)

end View

namespace World

open Engine View

variable {w w' w'' : World}

/-- The second world looks like the first, and its callbacks are calm. -/
structure Calms (w w' : World) : Prop where
  engine : composure.Same w.engine w'.engine
  hook : w'.hook = w.hook.map (·.panicking [] [])
  handler : w'.handler = w.handler.panicking false
  workshops : w'.workshops = w.workshops
  calls : w'.calls = w.calls
  nextCall : w'.nextCall = w.nextCall
  sentinels : w'.sentinels = w.sentinels
  nextSentinel : w'.nextSentinel = w.nextSentinel

theorem calms_calmed (w : World) : Calms w w.calmed where
  engine := by
    rw [Same, calmed, ← engine_composure, engine_engine]
  hook := rfl
  handler := rfl
  workshops := rfl
  calls := rfl
  nextCall := rfl
  sentinels := rfl
  nextSentinel := rfl

theorem Calms.calmed_eq (h : Calms w w') : w'.calmed = w.calmed := by
  have engine : w'.engine.calmed = w.engine.calmed := by
    rw [← engine_composure, ← h.engine, engine_composure]
  have hook : w'.hook.map (·.panicking [] []) = w.hook.map (·.panicking [] []) := by
    simp [h.hook, Function.comp_def, Hook.panicking_panicking]
  obtain ⟨⟩ := w
  obtain ⟨⟩ := w'
  obtain ⟨-, -, handler, workshops, calls, nextCall, sentinels, nextSentinel⟩ := h
  simp only at *
  subst handler workshops calls nextCall sentinels nextSentinel
  simp only [calmed, engine, hook, Handler.panicking_panicking]

/-! ## 2. Callbacks -/

theorem Calms.withEngine {e e' : Engine} (h : Calms w w') (same : composure.Same e e') :
    Calms { w with engine := e } { w' with engine := e' } :=
  { h with engine := same }

theorem Calms.onEngine {f : Engine → Engine} (h : Calms w w') (respects : composure.Respects f) :
    Calms (w.onEngine f) (w'.onEngine f) :=
  h.withEngine (respects.same h.engine)

theorem Calms.note (h : Calms w w') (n : Note) : Calms (w.note n) (w'.note n) :=
  h.onEngine (respects_note _ n)

theorem Calms.trace (h : Calms w w') (task : String) (t : Trace) :
    Calms (w.trace task t) (w'.trace task t) :=
  h.note _

theorem Calms.log (h : Calms w w') (r : LogRecord) : Calms (w.log r) (w'.log r) :=
  h.note _

theorem Calms.publishAbout (h : Calms w w') (t : TaskId) (event : Event) :
    Calms (w.publishAbout t event) (w'.publishAbout t event) :=
  h.onEngine (respects_publishAbout _ t event)

theorem Calms.updateWorkshop (h : Calms w w') (t : TaskId) (f : Workshop → Workshop) :
    Calms (w.updateWorkshop t f) (w'.updateWorkshop t f) :=
  { h with workshops := congrArg (·.modify t f) h.workshops }

theorem Calms.watchToken (h : Calms w w') (task : String) (token : Token) :
    Calms (w.watchToken task token) (w'.watchToken task token) :=
  { h with
    sentinels := by simp only [World.watchToken, h.sentinels, h.nextSentinel]
    nextSentinel := congrArg (· + 1) h.nextSentinel }

theorem Calms.triggerFor (h : Calms w w') (task : String) (target : Option String) :
    Calms (w.triggerFor task target) (w'.triggerFor task target) := by
  cases target with
  | none => exact h
  | some target =>
      obtain ⟨asked, answer⟩ := (composure.answers_trigger target).same h.engine
      simp only [World.triggerFor, answer]
      exact (h.withEngine asked).trace _ _

/-- A panic is not seen. -/
theorem same_log_panic (e : Engine) (task callback info : String) :
    composure.Same (e.note (.logged (.ofCallbackPanic task callback info))) e := by
  have unread : composure.reads (.logged (.ofCallbackPanic task callback info)) = false := rfl
  simp [Same, View.engine, Engine.note, unread]

/-- It makes no difference whether a callback panics, or which way. -/
theorem Calms.guarded (h : Calms w w') (task callback : String) (panic panic' : Option String) :
    Calms (w.guarded task callback panic) (w'.guarded task callback panic') := by
  have shown (w : World) (panic : Option String) :
      composure.Same (w.guarded task callback panic).engine w.engine := by
    cases panic with
    | none => exact .refl _
    | some info => exact same_log_panic ..
  have frame (w : World) (panic : Option String) :
      w.guarded task callback panic = { w with engine := (w.guarded task callback panic).engine } := by
    cases panic <;> rfl
  rw [frame w, frame w']
  exact h.withEngine (((shown w panic).trans h.engine).trans (shown w' panic').symm)

theorem Calms.callBefore (h : Calms w w') (callback : Callback) (hook : Option Hook)
    (spec : ResolvedSpec) (run : Run) :
    Calms (w.callBefore callback hook spec run)
      (w'.callBefore callback (hook.map (·.panicking [] [])) (spec.panicking [] []) run) := by
  cases hook with
  | none => exact h
  | some hook =>
      cases hook with
      | silent => exact h.note _
      | noting id panicBefore panicAfter triggerBefore triggerAfter =>
          simp only [World.callBefore, Option.map_some, Hook.panicking]
          exact (((h.note _).trace _ _).triggerFor _ _).guarded ..

theorem Calms.callAfter (h : Calms w w') (callback : Callback) (hook : Option Hook)
    (spec : ResolvedSpec) (run : Run) (outcome : Outcome) :
    Calms (w.callAfter callback hook spec run outcome)
      (w'.callAfter callback (hook.map (·.panicking [] [])) (spec.panicking [] []) run outcome) := by
  cases hook with
  | none => exact h
  | some hook =>
      cases hook with
      | silent => exact h.note _
      | noting id panicBefore panicAfter triggerBefore triggerAfter =>
          simp only [World.callAfter, Option.map_some, Hook.panicking]
          exact (((h.note _).trace _ _).triggerFor _ _).guarded ..

theorem Calms.handlerConduct (h : Calms w w') (task callback : String) (trigger : Option String)
    (panics panics' : Bool) :
    Calms (w.handlerConduct task callback trigger panics)
      (w'.handlerConduct task callback trigger panics') :=
  (h.triggerFor task trigger).guarded ..

theorem Calms.callHandler (h : Calms w w') (task : String) (run : RunId) (outcome : Outcome) :
    Calms (w.callHandler task run outcome) (w'.callHandler task run outcome) := by
  have handler (n : Note) : (w'.note n).handler = (w.note n).handler.panicking false := h.handler
  cases outcome with
  | succeeded => exact h
  | canceled err => exact h
  | failed err =>
      simp only [World.callHandler, handler]
      cases (w.note (.called (.onError err) run)).handler with
      | logging => exact (h.note _).log _
      | noting trigger panics => exact ((h.note _).trace _ _).handlerConduct ..
  | panicked info =>
      simp only [World.callHandler, handler]
      cases (w.note (.called (.onPanic info) run)).handler with
      | logging => exact (h.note _).log _
      | noting trigger panics => exact ((h.note _).trace _ _).handlerConduct ..

/-! ## 3. Work -/

theorem Calms.now (h : Calms w w') : w'.now = w.now := h.engine.now.symm

theorem Calms.gateIsFree (h : Calms w w') (t : TaskId) : w'.gateIsFree t = w.gateIsFree t := by
  simp only [World.gateIsFree, h.workshops]

theorem Calms.pauseOver (h : Calms w w') (run : Run) (pause : Pause) :
    w'.pauseOver run pause = w.pauseOver run pause := by
  cases pause <;>
    simp only [World.pauseOver, h.now, h.engine.isCancelled, World.hasPermit, h.workshops]

/-- Work does the same, and comes to the same. -/
theorem Calms.play (h : Calms w w') (id : RunId) (task : String) (token : Token)
    (actions : List Action) :
    Calms (World.play id task token actions w).1 (World.play id task token actions w').1 ∧
      (World.play id task token actions w').2 = (World.play id task token actions w).2 := by
  induction actions generalizing w w' with
  | nil => exact ⟨h, rfl⟩
  | cons a rest ih =>
      cases a with
      | succeed => exact ⟨h, rfl⟩
      | answer err => exact ⟨h, rfl⟩
      | panic info => exact ⟨h, rfl⟩
      | sleep d =>
          simp only [World.play, h.now]
          split
          · exact ih h
          · exact ⟨h, rfl⟩
      | sleepOrCancel d =>
          simp only [World.play, h.now, h.engine.isCancelled]
          split
          · exact ⟨h, rfl⟩
          · split
            · exact ih h
            · exact ⟨h, rfl⟩
      | gate =>
          simp only [World.play, h.gateIsFree]
          split
          · exact ih (h.updateWorkshop ..)
          · exact ⟨h.updateWorkshop .., rfl⟩
      | untilCancel =>
          simp only [World.play, h.engine.isCancelled]
          split <;> exact ⟨h, rfl⟩
      | awaitCancel =>
          simp only [World.play, h.engine.isCancelled]
          split
          · exact ih h
          · exact ⟨h, rfl⟩
      | check =>
          simp only [World.play, h.engine.isCancelled]
          split
          · exact ⟨h, rfl⟩
          · exact ih h
      | trigger target => exact ih (h.triggerFor task (some target))
      | cancel t => exact ih (h.onEngine (respects_cancel _ t))
      | state target =>
          simp only [World.play, h.engine.statusOf?]
          exact ih (h.trace ..)
      | watchToken => exact ih (h.watchToken ..)

theorem Calms.resume (h : Calms w w') (task : String) (run : Run) (pause : Pause)
    (rest : List Action) :
    Calms (w.resume task run pause rest).1 (w'.resume task run pause rest).1 ∧
      (w'.resume task run pause rest).2 = (w.resume task run pause rest).2 := by
  cases pause with
  | sleep due => exact h.play ..
  | sleepOrCancel due =>
      simp only [World.resume, h.engine.isCancelled]
      split
      · exact ⟨h, rfl⟩
      · exact h.play ..
  | gate => exact (h.updateWorkshop run.id.task _).play ..
  | cancel goesOn =>
      cases goesOn with
      | true => exact h.play ..
      | false => exact ⟨h, rfl⟩

/-! ## 4. Runs -/

section Runs

variable (spec : ResolvedSpec) (run : Run)

theorem Calms.conclude (h : Calms w w') (started : Instant) (outcome : Outcome) :
    Calms (w.conclude spec run started outcome)
      (w'.conclude (spec.panicking [] []) run started outcome) := by
  have shown := h.callAfter .engineAfter w.hook spec run outcome
  have shown' := shown.callAfter .taskAfter spec.hook spec run outcome
  have told := shown'.callHandler spec.name run.id outcome
  have ended := (told.publishAbout run.id.task (terminalEvent spec.name run.id.number outcome
    (w.now.since started))).onEngine (respects_finish composure run.id outcome)
  simp only [World.conclude, h.hook, h.now]
  exact ended

theorem Calms.afterPlay (h : Calms w w') (call : Nat) (started : Instant)
    (limit : Option (Duration × Instant)) {halt halt' : Halt} (same : halt' = halt) :
    Calms (w.afterPlay spec run call started limit halt)
      (w'.afterPlay (spec.panicking [] []) run call started limit halt') := by
  subst same
  cases halt' with
  | paused pause rest => exact h.onEngine (respects_setProgress _ _ _)
  | answered result => exact (h.trace ..).conclude spec run started _
  | panicked info => exact (h.trace ..).conclude spec run started _

theorem Calms.callWork (h : Calms w w') :
    Calms (w.callWork spec run) (w'.callWork (spec.panicking [] []) run) := by
  have work : (spec.panicking [] []).work = spec.work := rfl
  simp only [World.callWork, work]
  cases spec.work.refusal? run.id.number with
  | some info => exact h.onEngine (respects_abandon _ _)
  | none =>
      simp only [h.workshops, h.now, h.engine.isCancelled]
      have entered := (h.updateWorkshop run.id.task fun s =>
        { s with calls := ((w.workshops[run.id.task]?).map (·.calls)).getD 0 + 1 }).note
          (.called .work run.id)
      obtain ⟨played, halts⟩ := (entered.trace spec.name (.work _ _)).play run.id spec.name run.token
        (Work.clampedGet spec.work.calls _)
      exact played.afterPlay spec run _ _ _ halts

theorem Calms.launch (h : Calms w w') :
    Calms (w.launch spec run) (w'.launch (spec.panicking [] []) run) := by
  have shown := h.callBefore .engineBefore w.hook spec run
  have shown' := shown.callBefore .taskBefore spec.hook spec run
  have announced := shown'.publishAbout run.id.task
    { kind := .runStarted, task := some spec.name, run := some run.id.number }
  simp only [World.launch, h.hook]
  exact announced.callWork spec run

theorem Calms.cutShort (h : Calms w w') (call : Nat) (started : Instant) (limit : Duration) :
    Calms (w.cutShort spec run call started limit)
      (w'.cutShort (spec.panicking [] []) run call started limit) := by
  have dropped := ((h.updateWorkshop run.id.task fun s => { s with line := s.line.erase run.id }).trace
    spec.name (.workEnd call .dropped)).onEngine (respects_cancel composure run.token)
  exact dropped.conclude spec run started _

theorem Calms.continueRun (h : Calms w w') (call : Nat) (started : Instant)
    (limit : Option (Duration × Instant)) (pause : Pause) (rest : List Action) :
    Calms (w.continueRun spec run call started limit pause rest)
      (w'.continueRun (spec.panicking [] []) run call started limit pause rest) := by
  simp only [World.continueRun, h.pauseOver, h.now]
  split
  · obtain ⟨resumed, halts⟩ := h.resume spec.name run pause rest
    exact resumed.afterPlay spec run call started limit halts
  · split
    · split
      · exact h.cutShort ..
      · exact h
    · exact h

end Runs

/-- A turn of a run, in a world and in its calmed copy. -/
theorem calms_turnRun (w : World) (id : RunId) : Calms (w.turnRun id) (w.calmed.turnRun id) := by
  have h := w.calms_calmed
  have found : w.calmed.engine.run? id = w.engine.run? id := rfl
  have known : w.calmed.engine.tasks[id.task]? = (w.engine.tasks[id.task]?).map fun t =>
      { t with spec := t.spec.panicking [] [] } := List.getElem?_map ..
  simp only [World.turnRun, found, known]
  cases w.engine.run? id with
  | none => exact h
  | some run =>
      cases w.engine.tasks[id.task]? with
      | none => exact h
      | some task =>
          simp only [Option.map_some]
          cases run.progress with
          | launched => exact h.launch task.spec run
          | working call started limit pause rest => exact h.continueRun task.spec run ..

/-! ## 5. Calls -/

theorem Calms.openCall (h : Calms w w') (stage : CallStage) (blocking : Bool) :
    Calms (w.openCall stage blocking).1 (w'.openCall stage blocking).1 :=
  { h with
    calls := by simp only [World.openCall, h.calls, h.nextCall]
    nextCall := congrArg (· + 1) h.nextCall }

theorem Calms.setStage (h : Calms w w') (id : Nat) (stage : CallStage) :
    Calms (w.setStage id stage) (w'.setStage id stage) :=
  { h with calls := congrArg (List.map _) h.calls }

theorem Calms.removeCall (h : Calms w w') (id : Nat) : Calms (w.removeCall id) (w'.removeCall id) :=
  { h with calls := congrArg (List.filter _) h.calls }

theorem Calms.abortCall (h : Calms w w') (id : Nat) : Calms (w.abortCall id) (w'.abortCall id) :=
  { h with calls := congrArg (List.map _) h.calls }

theorem Calms.waitStage (h : Calms w w') (waiter : WaiterId) (limit : WaitLimit) :
    World.waitStage w'.engine waiter limit = World.waitStage w.engine waiter limit := by
  have now : w'.engine.now = w.engine.now := h.now
  simp only [World.waitStage, h.engine.delivery?, now, h.engine.isCancelled]

theorem Calms.leaveIfAnswered (h : Calms w w') (waiter : WaiterId) (stage : CallStage) :
    Calms (w.onEngine (World.leaveIfAnswered · waiter stage))
      (w'.onEngine (World.leaveIfAnswered · waiter stage)) := by
  apply h.withEngine
  cases stage with
  | answered time result =>
      simp only [World.leaveIfAnswered, h.engine.delivery?]
      split
      · exact h.engine
      · exact (respects_detach composure waiter).same h.engine
  | shuttingDown s => exact h.engine
  | waiting waiter limit => exact h.engine

theorem Calms.callShutdown (h : Calms w w') (token : Option Token) (blocking : Bool) :
    Calms (w.callShutdown token blocking).1 (w'.callShutdown token blocking).1 := by
  have opens {bound : Bound} {grace : Duration} :
      Calms ({ w with engine := (w.engine.shutdown bound grace).1 }.openCall
          (shutdownStage w.now (w.engine.shutdown bound grace).2) blocking).1
        ({ w' with engine := (w'.engine.shutdown bound grace).1 }.openCall
          (shutdownStage w'.now (w'.engine.shutdown bound grace).2) blocking).1 := by
    obtain ⟨asked, answer⟩ := (composure.answers_shutdown bound grace).same h.engine
    rw [h.now, answer]
    exact (h.withEngine asked).openCall ..
  cases token with
  | none =>
      simp only [World.callShutdown, shutdownWithin, ← h.engine.now, ← h.engine.config]
      exact opens
  | some t => exact opens

theorem Calms.callWait (h : Calms w w') (t : TaskId) (limit : WaitLimit) :
    Calms (w.callWait t limit).1 (w'.callWait t limit).1 := by
  obtain ⟨asked, answer⟩ := (composure.answers_requestWaiting t).same h.engine
  unfold World.callWait
  generalize w.engine.requestWaiting t = left at asked answer
  generalize w'.engine.requestWaiting t = right at asked answer
  obtain ⟨engine, waiter, result⟩ := left
  obtain ⟨engine', waiter', result'⟩ := right
  obtain ⟨rfl, rfl⟩ := Prod.mk.inj answer
  have there := h.withEngine asked
  cases result with
  | error err =>
      dsimp only
      rw [h.now]
      exact there.openCall ..
  | ok admission =>
      have stage := there.waitStage waiter limit
      dsimp only at stage ⊢
      rw [stage]
      exact (there.leaveIfAnswered waiter _).openCall ..

theorem Calms.callWaitByName (h : Calms w w') (name : String) (limit : WaitLimit) :
    Calms (w.callWaitByName name limit).1 (w'.callWaitByName name limit).1 := by
  have known : w'.engine.lookup? name = w.engine.lookup? name :=
    h.engine.symm.reads (·.lookup? name) fun e => composure.lookup?_engine e name
  simp only [World.callWaitByName, known, h.now]
  cases w.engine.lookup? name with
  | none => exact h.openCall ..
  | some t => exact h.callWait t limit

theorem Calms.turnCall (h : Calms w w') (id : Nat) : Calms (w.turnCall id) (w'.turnCall id) := by
  have found : w'.call? id = w.call? id := congrArg (List.find? _) h.calls
  simp only [World.turnCall, found]
  cases w.call? id with
  | none => exact h
  | some c =>
      dsimp only
      split
      · -- it was given up
        unfold dropCall
        split
        · exact (h.onEngine (respects_detach composure _)).removeCall c.id
        · exact h.removeCall c.id
        · exact h.removeCall c.id
      · cases c.stage with
        | shuttingDown s =>
            obtain ⟨turned, answer⟩ := (composure.answers_turnShutdown s).same h.engine
            simp only [h.now, ← answer]
            exact (h.withEngine turned).setStage ..
        | waiting waiter limit =>
            simp only [h.waitStage]
            exact (h.leaveIfAnswered waiter _).setStage ..
        | answered time result => exact h

theorem Calms.turnSentinel (h : Calms w w') (id : Nat) :
    Calms (w.turnSentinel id) (w'.turnSentinel id) := by
  simp only [World.turnSentinel, h.sentinels]
  cases w.sentinels.find? (·.id == id) with
  | none => exact h
  | some s =>
      simp only [h.engine.isCancelled]
      split
      · have ended : Calms { w with sentinels := w.sentinels.filter (·.id != id) }
            { w' with sentinels := w.sentinels.filter (·.id != id) } := { h with sentinels := rfl }
        exact ended.trace ..
      · exact h

theorem Calms.add (h : Calms w w') (spec : Spec) : Calms (w.add spec).1 (w'.add spec).1 := by
  obtain ⟨added, answer⟩ : composure.Same (w.engine.add spec).1 (w'.engine.add spec).1 ∧
    (w.engine.add spec).2 = (w'.engine.add spec).2 := same_add h.engine rfl
  unfold World.add
  generalize w.engine.add spec = left at added answer
  generalize w'.engine.add spec = right at added answer
  obtain ⟨engine, result⟩ := left
  obtain ⟨engine', result'⟩ := right
  obtain rfl : result = result' := answer
  cases result with
  | error err => exact h.withEngine added
  | ok t => exact { h.withEngine added with workshops := congrArg (· ++ [{}]) h.workshops }

/-! ## 6. Acts -/

section Calmed

variable (w : World)

theorem isIdle_calmed : w.calmed.engine.isIdle = w.engine.isIdle := by
  simp [World.calmed, Engine.calmed, isIdle, Function.comp_def]

theorem live_calmed : w.calmed.live = w.live := by
  have loops : (w.calmed.engine.tasks.zipIdx.filter fun p => p.1.loop.isAlive).map (·.2) =
      (w.engine.tasks.zipIdx.filter fun p => p.1.loop.isAlive).map (·.2) := by
    simp [World.calmed, Engine.calmed, List.zipIdx_map, List.filter_map, Function.comp_def]
  have schedules := congrArg (List.map Process.schedule) loops
  simp only [List.map_map, Function.comp_def] at schedules
  simp only [live, schedules]
  rfl

theorem canCall_calmed (c : Call) : w.calmed.canCall c = w.canCall c := by
  have shutdown (s : Shutdown) :
      w.calmed.engine.canTurnShutdown s = w.engine.canTurnShutdown s := by
    simp only [canTurnShutdown, isIdle_calmed]
    cases s.bound <;> rfl
  unfold canCall
  cases c.stage with
  | shuttingDown s => simp only [shutdown]
  | waiting waiter limit => rfl
  | answered time result => rfl

theorem able_calmed (p : Process) : w.calmed.able p = w.able p := by
  cases p with
  | schedule t =>
      have known : w.calmed.engine.tasks[t]? = (w.engine.tasks[t]?).map fun t =>
          { t with spec := t.spec.panicking [] [] } := List.getElem?_map ..
      simp only [able, known, Option.any_map]
      rfl
  | call id => exact congrArg (Option.any · (w.call? id)) (funext w.canCall_calmed)
  | _ => rfl

theorem allows_calmed (a : Act) : w.calmed.allows a = w.allows a := by
  cases a with
  | turn p => simp only [allows, live_calmed, able_calmed]
  | _ => rfl

end Calmed

/-- After the same act, the one is again the calmed copy of the other. -/
theorem calms_perform (w : World) {a : Act} (plain : a.isRedraw = false) :
    Calms (w.perform a) (w.calmed.perform a) := by
  have h := w.calms_calmed
  have moves (m : Move) : Calms (w.onEngine (·.perform m)) (w.calmed.onEngine (·.perform m)) :=
    h.onEngine (respects_perform composure m)
  cases a with
  | turn p =>
      cases p with
      | worker i => exact moves (.work i)
      | pump => exact h.onEngine (respects_turnPump composure)
      | watcher => exact moves .watch
      | schedule t => exact moves (.schedule t)
      | run id => exact calms_turnRun w id
      | call id => exact h.turnCall id
      | sentinel id => exact h.turnSentinel id
  | clock now => exact moves (.clock now)
  | add spec => exact h.add spec
  | start token => exact moves (.start token)
  | cancel token => exact moves (.cancel token)
  | request t => exact moves (.request t)
  | trigger name => exact h.withEngine ((composure.answers_trigger name).same h.engine).1
  | requestWaiting t => exact moves (.requestWaiting t)
  | detach waiter => exact moves (.detach waiter)
  | release t permits => exact h.updateWorkshop t _
  | callShutdown token blocking => exact h.callShutdown ..
  | callWait t limit => exact h.callWait ..
  | callWaitByName name limit => exact h.callWaitByName ..
  | turnCall id => exact h.turnCall id
  | abortCall id => exact h.abortCall id
  | removeCall id => exact h.removeCall id
  | redraw mood => cases plain

theorem calmed_redraw (w : World) (mood : Mood) : (w.redraw mood).calmed = w.calmed := by
  simp [redraw, World.calmed, Engine.calmed, updateTasks, ResolvedSpec.panicking,
    Handler.panicking_panicking, Hook.panicking_panicking, Function.comp_def]

theorem allows_of_calmed_eq (h : w'.calmed = w.calmed) (a : Act) : w'.allows a = w.allows a := by
  rw [← allows_calmed w', h, allows_calmed]

theorem perform_of_calmed_eq (h : w'.calmed = w.calmed) {a : Act} (plain : a.isRedraw = false) :
    (w'.perform a).calmed = (w.perform a).calmed := by
  rw [← (calms_perform w' plain).calmed_eq, h, (calms_perform w plain).calmed_eq]

/-- Decisions about panics change nothing that is possible, and nothing in the calmed copy. -/
theorem after_of_calmed_eq (h : w'.calmed = w.calmed) (acts : List Act) :
    w'.admits (acts.filter (!·.isRedraw)) = w.admits acts ∧
      (w'.after (acts.filter (!·.isRedraw))).calmed = (w.after acts).calmed := by
  induction acts generalizing w w' with
  | nil => exact ⟨rfl, h⟩
  | cons a acts ih =>
      cases redrawn : a.isRedraw with
      | true =>
          cases a with
          | redraw mood =>
              have skipped : (Act.redraw mood :: acts).filter (!·.isRedraw) =
                  acts.filter (!·.isRedraw) := rfl
              have still : w'.calmed = (w.perform (.redraw mood)).calmed :=
                h.trans (calmed_redraw w mood).symm
              rw [skipped]
              exact ih still
          | _ => cases redrawn
      | false =>
          have kept : (a :: acts).filter (!·.isRedraw) = a :: acts.filter (!·.isRedraw) :=
            List.filter_cons_of_pos (by simp [redrawn])
          obtain ⟨possible, calmed⟩ := ih (perform_of_calmed_eq h redrawn)
          rw [kept]
          exact ⟨congrArg₂ (· && ·) (allows_of_calmed_eq h a) possible, calmed⟩

/-! ## 7. The result -/

/-- **Callbacks are complete, and cannot influence a run.**  Whatever happens in a world, with every
hook, handler and work, and however it is decided from turn to turn whether a callback panics:

* the marks of every run that has begun are those of its course so far, each once and in order: hook
  of the engine, hook of the task, `RunStarted`, work, both hooks, the handler exactly if the outcome
  is a failure, the terminal event, the end (a run whose call the work refuses is lost there);
* with all decisions about panics taken otherwise, the same acts are possible, and they lead to the
  same world but for the records of panics: the same tasks, runs, events and answers. -/
theorem callbacks_complete_without_influence (config : Config) (subscribers : List Subscriber)
    (hook : Option Hook) (handler : Handler) {acts : List Act}
    (admitted : (create config subscribers hook handler).admits acts = true) :
    (∀ id, ((create config subscribers hook handler).after acts).engine.hasBegun id →
      ((create config subscribers hook handler).after acts).Stands id) ∧
    ∀ acts' : List Act, acts'.filter (!·.isRedraw) = acts.filter (!·.isRedraw) →
      (create config subscribers hook handler).admits acts' = true ∧
      ((create config subscribers hook handler).after acts').calmed =
        ((create config subscribers hook handler).after acts).calmed := by
  refine ⟨(recorded_after config subscribers hook handler admitted).stands, ?_⟩
  intro acts' same
  obtain ⟨possible, calmed⟩ := after_of_calmed_eq rfl acts
  obtain ⟨possible', calmed'⟩ := after_of_calmed_eq rfl acts'
  rw [same] at possible' calmed'
  exact ⟨possible'.symm.trans (possible.trans admitted), calmed'.symm.trans calmed⟩

/-- A task whose work panics, with a hook that does so too, and asks for another run. -/
def nervous : Spec :=
  { work := .plays [[.panic "no"]], schedule := .onDemand, name := "job", overlap := .merge
    hook := some (.noting "of the task" [1] [1] (some "job") none) }

/-- The task is registered, the engine starts, and a run is asked for and takes its turn; before
that it may be decided anew when callbacks panic. -/
def nervousActs (redraws : List Act) : List Act :=
  [.add nervous, .start (.named "t"), .request 0] ++ redraws ++ [.turn (.run ⟨0, 1⟩)]

def nervousWorld (redraws : List Act) : World :=
  (create {} [] (some (.noting "of the engine" [1] [1] none (some "job")))
    (.noting (some "job") true)).after (nervousActs redraws)

/-- How often a callback panicked. -/
def panics (w : World) : Nat := w.engine.journal.countP (·.note.isCallbackPanic)

/-- All five callbacks panic, or none does. -/
theorem callbacks_complete_without_influence_nervous :
    (nervousWorld []).panics = 5 ∧ (nervousWorld [.redraw {}]).panics = 0 ∧
    (nervousWorld []).Stands ⟨0, 1⟩ ∧
    (nervousWorld [.redraw {}]).calmed = (nervousWorld []).calmed := by
  have admitted : (create {} [] (some (.noting "of the engine" [1] [1] none (some "job")))
      (.noting (some "job") true)).admits (nervousActs []) = true := by decide +kernel
  obtain ⟨stands, alike⟩ := callbacks_complete_without_influence {} []
    (some (.noting "of the engine" [1] [1] none (some "job"))) (.noting (some "job") true) admitted
  have marked : (nervousWorld []).engine.marks ⟨0, 1⟩ ≠ [] := by decide +kernel
  have begun : (nervousWorld []).engine.hasBegun ⟨0, 1⟩ := by
    by_contra fresh
    exact marked ((recorded_after _ _ _ _ admitted).unmarked _ fresh)
  exact ⟨by decide +kernel, by decide +kernel, stands _ begun,
    (alike (nervousActs [.redraw {}]) (by rfl)).2⟩

/-- The same task, but its work panics when it is called. -/
def refusing : Spec := { nervous with work := .refusesCall "no" }

def refusingWorld : World :=
  (create {} [] (some .silent) .logging).after
    [.add refusing, .start (.named "t"), .request 0, .turn (.run ⟨0, 1⟩)]

/-- Its run has ended without the hooks after it, the handler, the terminal event or the end. -/
theorem refused_call_skips_callbacks :
    refusingWorld.engine.run? ⟨0, 1⟩ = none ∧
    refusingWorld.engine.marks ⟨0, 1⟩ =
      [.called .engineBefore, .called .taskBefore,
        .published { kind := .runStarted, task := some "job", run := some 1 }] := by
  decide +kernel

end World

end TaskEngine
