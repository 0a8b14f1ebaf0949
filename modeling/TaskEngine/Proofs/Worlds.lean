/-
  TaskEngine/Proofs/Worlds.lean
  =============================
  **An engine among its callers has a history.**

  The histories of `Moves.lean` leave open what the code of callers does.  In a `World` that code is
  there: hooks, handlers and work are played, calls are kept under way, and processes take turns.
  Whatever a world does, its engine only goes through moves that are possible
  (`World.engine_has_history`), so what is proved of all histories holds of every world.

  Two facts have to be carried along, because a move is possible only if they hold.  A run that
  announces itself is in flight: callbacks and work may ask for further runs but end none
  (`World.Carries`).  A shutdown that takes a turn finds the engine stopping or stopped: a call
  becomes one only through a shutdown (`World.Orderly`).

  All of this is routine but for one thing, the end of a run (`World.Deed`).  What both keep holds
  in every world (`World.keeps_reached`).
-/
import TaskEngine.Proofs.Growth
import TaskEngine.Proofs.Notes
import TaskEngine.World.Processes

namespace TaskEngine

namespace Outcome

/-- How the handler is called with the outcome, if it is a failure. -/
def callback? : Outcome → Option Callback
  | failed err => some (.onError err)
  | panicked info => some (.onPanic info)
  | succeeded | canceled _ => none

/-- Whether work may come to the outcome: a cancellation is a failure exactly if it is reported. -/
def fits (reports : Bool) : Outcome → Bool
  | failed err => !err.isCancellation || reports
  | canceled err => err.isCancellation && !reports
  | succeeded | panicked _ => true

theorem fits_ofAnswer (reports : Bool) (answer : Except WorkError Unit) :
    (ofAnswer reports answer).fits reports = true := by
  cases answer with
  | ok => rfl
  | error err =>
      cases cancels : err.isCancellation <;> cases reports <;> simp [ofAnswer, fits, cancels]

end Outcome

namespace Engine

variable {e e' : Engine}

/-! ## 1. What histories keep -/

theorem Leads.isClosing (h : Leads e e') (closing : e.isClosing = true) : e'.isClosing = true := by
  obtain ⟨moves, admitted, rfl⟩ := h
  exact feeds_after (P := (·.isClosing = true)) (fun _ _ closing feeds => feeds.isClosing closing)
    admitted closing

theorem Leads.grows (h : Leads e e') : Grows e e' := by
  obtain ⟨moves, admitted, rfl⟩ := h
  exact grows_after admitted

def Retains (e e' : Engine) : Prop :=
  ∀ id, (e.run? id).isSome = true → (e'.run? id).isSome = true

theorem retains_of_append {more : List Run} (runs : e'.runs = e.runs ++ more) : Retains e e' := by
  intro id present
  rw [run?, runs, List.find?_append, Option.isSome_or]
  exact Bool.or_eq_true_iff.mpr (.inl present)

theorem retains_of_eq (runs : e'.runs = e.runs) : Retains e e' :=
  retains_of_append (runs.trans (List.append_nil _).symm)

theorem retains_request (e : Engine) (t : TaskId) (waiter : Option WaiterId) :
    Retains e (e.request t waiter).1 := by
  have step := e.request_step t waiter
  generalize e.request t waiter = answer at step ⊢
  cases step with
  | refused err => exact retains_of_eq rfl
  | skipped task known full => exact retains_of_eq rfl
  | merged task known admits willing full overlap => exact retains_of_eq rfl
  | started task known admits willing room =>
      rw [beginRun_eq known]
      exact retains_of_append rfl

theorem leadsRoutinely_trigger (e : Engine) (name : String) :
    LeadsRoutinely e (e.trigger name).1 := by
  unfold trigger
  cases e.lookup? name with
  | none => exact .refl e
  | some t => exact leadsRoutinely_perform (m := .request t) rfl rfl

theorem retains_trigger (e : Engine) (name : String) : Retains e (e.trigger name).1 := by
  unfold trigger
  cases e.lookup? name with
  | none => exact retains_of_eq rfl
  | some t => exact retains_request e t none

theorem isAboutRun_terminalEvent (task : String) (number : Nat) (outcome : Outcome)
    (elapsed : Duration) : (terminalEvent task number outcome elapsed).kind.isAboutRun = true := by
  cases outcome <;> rfl

/-- A shutdown that has been asked for finds the engine stopping or stopped. -/
theorem isClosing_shutdown (e : Engine) (bound : Bound) (grace : Duration) :
    (e.shutdown bound grace).1.isClosing = true := by
  have goesOn {e : Engine} (closing : e.isClosing = true) (s : Shutdown) :
      (e.turnShutdown s).1.isClosing = true :=
    (leads_perform (m := .awaitShutdown s) closing).isClosing closing
  cases phase : e.phase with
  | stopped => simp [shutdown, isClosing, phase]
  | notStarted =>
      simp only [shutdown, phase, isClosing, (aside_beginFlush _ _).phase]
      rfl
  | running =>
      simp only [shutdown, phase]
      exact goesOn rfl _
  | stopping =>
      simp only [shutdown, phase]
      exact goesOn (by rw [isClosing, phase]; rfl) _

end Engine

namespace World

open Engine

variable {w w' w'' : World}

/-! ## 2. Callbacks and work -/

/-- What callbacks and work do: they note and log, ask for runs, cancel tokens, use up what their
task has, and have tokens watched. -/
inductive Errand : World → World → Prop where
  | trace (w : World) (task : String) (t : Trace) : Errand w (w.trace task t)
  | log (w : World) (r : LogRecord) : Errand w (w.log r)
  | trigger (w : World) (task target : String) : Errand w (w.triggerFor task (some target))
  | cancel (w : World) (t : Token) : Errand w (w.onEngine (·.cancel t))
  | workshop (w : World) (t : TaskId) (f : Workshop → Workshop) : Errand w (w.updateWorkshop t f)
  | watch (w : World) (task : String) (token : Token) : Errand w (w.watchToken task token)

abbrev Errands : World → World → Prop := Relation.ReflTransGen Errand

theorem Errands.relates {R : World → World → Prop} (refl : ∀ w, R w w)
    (trans : ∀ {a b c}, R a b → R b c → R a c) (errand : ∀ {w w'}, Errand w w' → R w w')
    (h : Errands w w') : R w w' := by
  induction h with
  | refl => exact refl w
  | tail _ last ih => exact trans ih (errand last)

theorem Errand.errands (h : Errand w w') : Errands w w' := .single h

theorem errands_triggerFor (w : World) (task : String) (target : Option String) :
    Errands w (w.triggerFor task target) := by
  cases target with
  | none => exact .refl
  | some target => exact (Errand.trigger w task target).errands

theorem errands_guarded (w : World) (task callback : String) (panic : Option String) :
    Errands w (w.guarded task callback panic) := by
  cases panic with
  | none => exact .refl
  | some info => exact (Errand.log w _).errands

theorem errands_handlerConduct (w : World) (task callback : String) (trigger : Option String)
    (panics : Bool) : Errands w (w.handlerConduct task callback trigger panics) :=
  (errands_triggerFor ..).trans (errands_guarded ..)

theorem errands_play (id : RunId) (task : String) (token : Token) (actions : List Action)
    (w : World) : Errands w (play id task token actions w).1 := by
  induction actions generalizing w with
  | nil => exact .refl
  | cons a rest ih =>
      have onWith {w' : World} (first : Errand w w') : Errands w (play id task token rest w').1 :=
        first.errands.trans (ih w')
      cases a with
      | succeed => exact .refl
      | answer err => exact .refl
      | panic info => exact .refl
      | sleep d =>
          unfold play
          dsimp only
          split
          · exact ih w
          · exact .refl
      | sleepOrCancel d =>
          unfold play
          dsimp only
          split
          · exact .refl
          · split
            · exact ih w
            · exact .refl
      | gate =>
          unfold play
          dsimp only
          split
          · exact onWith (.workshop ..)
          · exact (Errand.workshop ..).errands
      | untilCancel =>
          unfold play
          dsimp only
          split <;> exact .refl
      | awaitCancel =>
          unfold play
          dsimp only
          split
          · exact ih w
          · exact .refl
      | check =>
          unfold play
          dsimp only
          split
          · exact .refl
          · exact ih w
      | trigger target => exact onWith (.trigger ..)
      | cancel t => exact onWith (.cancel w t)
      | state target => exact onWith (.trace ..)
      | watchToken => exact onWith (.watch ..)

theorem errands_resume (w : World) (task : String) (run : Run) (pause : Pause)
    (rest : List Action) : Errands w (w.resume task run pause rest).1 := by
  cases pause with
  | sleep due => exact errands_play ..
  | sleepOrCancel due =>
      unfold resume
      dsimp only
      split
      · exact .refl
      · exact errands_play ..
  | gate => exact (Errand.workshop w run.id.task _).errands.trans (errands_play ..)
  | cancel goesOn =>
      cases goesOn with
      | true => exact errands_play ..
      | false => exact .refl

/-- A callback is called for a run, if there is one, and goes on errands. -/
inductive Calls (callback? : Option Callback) (run : RunId) : World → World → Prop where
  | silent (w : World) (none : callback? = none) : Calls callback? run w w
  | called {w w' : World} {callback : Callback} (calls : callback? = some callback)
      (errands : Errands (w.note (.called callback run)) w') : Calls callback? run w w'

theorem calls_callBefore (w : World) (callback : Callback) (hook : Option Hook)
    (spec : ResolvedSpec) (run : Run) :
    Calls (hook.map fun _ => callback) run.id w (w.callBefore callback hook spec run) := by
  unfold callBefore
  split
  · exact .silent w rfl
  · exact .called rfl .refl
  · exact .called rfl (((Errand.trace ..).errands.trans (errands_triggerFor ..)).trans
      (errands_guarded ..))

theorem calls_callAfter (w : World) (callback : Callback) (hook : Option Hook)
    (spec : ResolvedSpec) (run : Run) (outcome : Outcome) :
    Calls (hook.map fun _ => callback) run.id w (w.callAfter callback hook spec run outcome) := by
  unfold callAfter
  split
  · exact .silent w rfl
  · exact .called rfl .refl
  · exact .called rfl (((Errand.trace ..).errands.trans (errands_triggerFor ..)).trans
      (errands_guarded ..))

theorem calls_callHandler (w : World) (task : String) (run : RunId) (outcome : Outcome) :
    Calls outcome.callback? run w (w.callHandler task run outcome) := by
  cases outcome with
  | succeeded => exact .silent w rfl
  | canceled err => exact .silent w rfl
  | failed err =>
      refine .called rfl ?_
      unfold callHandler
      dsimp only
      split
      · exact (Errand.log ..).errands
      · exact (Errand.trace ..).errands.trans (errands_handlerConduct ..)
  | panicked info =>
      refine .called rfl ?_
      unfold callHandler
      dsimp only
      split
      · exact (Errand.log ..).errands
      · exact (Errand.trace ..).errands.trans (errands_handlerConduct ..)

/-- The engine has gone through a history of routine, and the calls under way are the same. -/
structure Goes (w w' : World) : Prop where
  leads : w.engine.LeadsRoutinely w'.engine
  calls : w'.calls = w.calls
  nextCall : w'.nextCall = w.nextCall

/-- Besides, no run has ended. -/
structure Carries (w w' : World) : Prop extends Goes w w' where
  retains : w.engine.Retains w'.engine

theorem Goes.refl (w : World) : Goes w w := ⟨.refl _, rfl, rfl⟩

theorem Goes.trans (first : Goes w w') (second : Goes w' w'') : Goes w w'' :=
  ⟨first.leads.trans second.leads, second.calls.trans first.calls,
    second.nextCall.trans first.nextCall⟩

theorem Carries.trans (first : Carries w w') (second : Carries w' w'') : Carries w w'' :=
  ⟨first.toGoes.trans second.toGoes, fun id present => second.retains id (first.retains id present)⟩

theorem carries_of_eq (engine : w'.engine = w.engine) (calls : w'.calls = w.calls)
    (nextCall : w'.nextCall = w.nextCall) : Carries w w' :=
  ⟨⟨engine ▸ .refl _, calls, nextCall⟩, engine ▸ retains_of_eq rfl⟩

theorem Carries.refl (w : World) : Carries w w := carries_of_eq rfl rfl rfl

theorem goes_perform {m : Move} (routine : m.isRoutine = true)
    (allowed : w.engine.allows m = true) : Goes w (w.onEngine (·.perform m)) :=
  ⟨leadsRoutinely_perform routine allowed, rfl, rfl⟩

theorem carries_note (w : World) {n : Note} (routine : n.isRoutine = true)
    (own : n.isOfCallers = true) : Carries w (w.note n) :=
  ⟨goes_perform (m := .remark n) routine own, retains_of_eq rfl⟩

theorem carries_called (w : World) {callback : Callback} (other : callback.isOfHandler = false)
    (run : RunId) : Carries w (w.note (.called callback run)) :=
  carries_note w (by rw [Note.isRoutine, other]; rfl) rfl

theorem carries_updateWorkshop (w : World) (t : TaskId) (f : Workshop → Workshop) :
    Carries w (w.updateWorkshop t f) :=
  carries_of_eq rfl rfl rfl

theorem carries_trace (w : World) (task : String) (t : Trace) : Carries w (w.trace task t) :=
  carries_note w rfl rfl

theorem carries_cancel (w : World) (t : Token) : Carries w (w.onEngine (·.cancel t)) :=
  ⟨goes_perform (m := .cancel t) rfl rfl, retains_of_eq rfl⟩

theorem carries_announce (w : World) {id : RunId} {event : Event}
    (present : (w.engine.run? id).isSome = true) (begins : event.kind = .runStarted) :
    Carries w (w.publishAbout id.task event) := by
  have routine : (Move.announce id event).isRoutine = true := by
    rw [Move.isRoutine, begins]
    rfl
  have allowed : w.engine.allows (.announce id event) = true :=
    Bool.and_eq_true_iff.mpr ⟨present, by rw [begins]; rfl⟩
  exact ⟨goes_perform routine allowed, retains_of_eq rfl⟩

theorem carries_triggerFor (w : World) (task : String) (target : Option String) :
    Carries w (w.triggerFor task target) := by
  cases target with
  | none => exact .refl w
  | some target =>
      have asked : Carries w { w with engine := (w.engine.trigger target).1 } :=
        ⟨⟨leadsRoutinely_trigger .., rfl, rfl⟩, retains_trigger w.engine target⟩
      exact asked.trans (carries_trace _ _ _)

theorem Errand.carries (h : Errand w w') : Carries w w' := by
  cases h with
  | trace task t => exact carries_trace ..
  | log r => exact carries_note w rfl rfl
  | trigger task target => exact carries_triggerFor ..
  | cancel t => exact carries_cancel w t
  | workshop t f => exact carries_updateWorkshop ..
  | watch task token => exact carries_of_eq rfl rfl rfl

/-- Errands end no run. -/
theorem Errands.carries (h : Errands w w') : Carries w w' :=
  h.relates .refl .trans Errand.carries

theorem Calls.carries {callback? : Option Callback} {run : RunId} (h : Calls callback? run w w')
    (other : callback?.all (!·.isOfHandler) = true) : Carries w w' := by
  cases h with
  | silent none => exact .refl w
  | called calls errands =>
      rw [calls, Option.all_some, Bool.not_eq_true'] at other
      exact (carries_called w other run).trans errands.carries

theorem carries_callBefore (w : World) {callback : Callback} (other : callback.isOfHandler = false)
    (hook : Option Hook) (spec : ResolvedSpec) (run : Run) :
    Carries w (w.callBefore callback hook spec run) :=
  (calls_callBefore ..).carries (by cases hook <;> simp [other])

theorem carries_callAfter (w : World) {callback : Callback} (other : callback.isOfHandler = false)
    (hook : Option Hook) (spec : ResolvedSpec) (run : Run) (outcome : Outcome) :
    Carries w (w.callAfter callback hook spec run outcome) :=
  (calls_callAfter ..).carries (by cases hook <;> simp [other])

/-- Work may ask for runs and cancel tokens, and ends no run while it plays. -/
theorem carries_play (id : RunId) (task : String) (token : Token) (actions : List Action)
    (w : World) : Carries w (play id task token actions w).1 :=
  (errands_play ..).carries

theorem carries_resume (w : World) (task : String) (run : Run) (pause : Pause)
    (rest : List Action) : Carries w (w.resume task run pause rest).1 :=
  (errands_resume ..).carries

/-! ## 3. Runs -/

section Runs

variable {spec : ResolvedSpec} {run : Run}

/-- The run is in flight, for a task of that spec. -/
structure Hosts (w : World) (spec : ResolvedSpec) (run : Run) : Prop where
  present : (w.engine.run? run.id).isSome = true
  known : ∃ task, w.engine.tasks[run.id.task]? = some task ∧ task.spec = spec

theorem Carries.hosts (h : Carries w w') (hosts : w.Hosts spec run) : w'.Hosts spec run := by
  refine ⟨h.retains _ hosts.present, ?_⟩
  obtain ⟨task, known, rfl⟩ := hosts.known
  obtain ⟨new, known', later⟩ := h.leads.leads.grows _ task known
  exact ⟨new, known', later.spec⟩

/-- What a run does: callbacks and work, which is routine, and at last it comes to its end. -/
inductive Deed : World → World → Prop where
  | goes {w w' : World} (h : Goes w w') : Deed w w'
  | conclude (w : World) {spec : ResolvedSpec} {run : Run} (hosts : w.Hosts spec run)
      (started : Instant) {outcome : Outcome}
      (fits : outcome.fits spec.reportCancellations = true) :
      Deed w (w.conclude spec run started outcome)

abbrev Deeds : World → World → Prop := Relation.ReflTransGen Deed

theorem Carries.deeds (h : Carries w w') : Deeds w w' := .single (.goes h.toGoes)

theorem deeds_conclude (hosts : w.Hosts spec run) (started : Instant) {outcome : Outcome}
    (fits : outcome.fits spec.reportCancellations = true) :
    Deeds w (w.conclude spec run started outcome) :=
  .single (.conclude w hosts started fits)

theorem deeds_afterPlay (hosts : w.Hosts spec run) (call : Nat) (started : Instant)
    (limit : Option (Duration × Instant)) (halt : Halt) :
    Deeds w (w.afterPlay spec run call started limit halt) := by
  have noted (how : WorkExit) {outcome : Outcome}
      (fits : outcome.fits spec.reportCancellations = true) :
      Deeds w ((w.trace spec.name (.workEnd call how)).conclude spec run started outcome) := by
    have traced := carries_trace w spec.name (.workEnd call how)
    exact traced.deeds.trans (deeds_conclude (traced.hosts hosts) started fits)
  cases halt with
  | paused pause rest =>
      let progress : Progress := .working call started limit pause rest
      exact .single (.goes (goes_perform (m := .progress run.id progress) rfl rfl))
  | answered result => exact noted _ (Outcome.fits_ofAnswer _ result)
  | panicked info => exact noted _ rfl

theorem deeds_callWork (hosts : w.Hosts spec run) : Deeds w (w.callWork spec run) := by
  unfold callWork
  split
  · rename_i info refusal
    obtain ⟨task, known, rfl⟩ := hosts.known
    have refuses : w.engine.allows (.abandon run.id) = true := by
      rw [allows, known, Option.any_some, Work.refuses, refusal]
      rfl
    exact .single (.goes (goes_perform rfl refuses))
  · have played (f : Workshop → Workshop) (t : Trace) (actions : List Action) :
        Carries w (play run.id spec.name run.token actions (((w.updateWorkshop run.id.task f).note
          (.called .work run.id)).trace spec.name t)).1 :=
      (((carries_updateWorkshop w run.id.task f).trans (carries_called _ rfl _)).trans
        (carries_trace ..)).trans (carries_play ..)
    exact (played ..).deeds.trans (deeds_afterPlay ((played ..).hosts hosts) ..)

theorem deeds_launch (hosts : w.Hosts spec run) : Deeds w (w.launch spec run) := by
  have hooked : Carries w ((w.callBefore .engineBefore w.hook spec run).callBefore .taskBefore
      spec.hook spec run) := (carries_callBefore w rfl ..).trans (carries_callBefore _ rfl ..)
  let begins : Event := { kind := .runStarted, task := some spec.name, run := some run.id.number }
  have announced := hooked.trans (carries_announce _ (hooked.hosts hosts).present
    (show begins.kind = .runStarted from rfl))
  exact announced.deeds.trans (deeds_callWork (announced.hosts hosts))

theorem deeds_cutShort (hosts : w.Hosts spec run) (call : Nat) (started : Instant)
    (limit : Duration) : Deeds w (w.cutShort spec run call started limit) := by
  have dropped : Carries w (((w.leaveLine run.id).trace spec.name (.workEnd call .dropped)).onEngine
      (·.cancel run.token)) :=
    ((carries_updateWorkshop w run.id.task _).trans (carries_trace ..)).trans (carries_cancel ..)
  exact dropped.deeds.trans
    (deeds_conclude (dropped.hosts hosts) started (Outcome.fits_ofAnswer _ _))

theorem deeds_continueRun (hosts : w.Hosts spec run) (call : Nat) (started : Instant)
    (limit : Option (Duration × Instant)) (pause : Pause) (rest : List Action) :
    Deeds w (w.continueRun spec run call started limit pause rest) := by
  unfold continueRun
  split
  · have resumed := carries_resume w spec.name run pause rest
    exact resumed.deeds.trans (deeds_afterPlay (resumed.hosts hosts) ..)
  · split
    · split
      · exact deeds_cutShort hosts ..
      · exact .refl
    · exact .refl

end Runs

theorem deeds_turnRun (w : World) (id : RunId) : Deeds w (w.turnRun id) := by
  unfold turnRun
  split
  · rename_i run task found known
    obtain rfl : run.id = id := (mem_of_run? found).2
    have hosts : w.Hosts task.spec run := ⟨by rw [found]; rfl, task, known, rfl⟩
    split
    · exact deeds_launch hosts
    · exact deeds_continueRun hosts ..
  · exact .refl

/-! ### The end of a run -/

/-- The handler is called if the outcome is a failure. -/
inductive Reports (outcome : Outcome) (run : RunId) : World → World → Prop where
  | silent (w : World) (none : outcome.callback? = none) : Reports outcome run w w
  | called {w w' : World} {callback : Callback} (fails : outcome.callback? = some callback)
      (h : Carries (w.note (.called callback run)) w') : Reports outcome run w w'

theorem reports_callHandler (w : World) (task : String) (run : RunId) (outcome : Outcome) :
    Reports outcome run w (w.callHandler task run outcome) := by
  have calls := calls_callHandler w task run outcome
  generalize w.callHandler task run outcome = told at calls ⊢
  cases calls with
  | silent none => exact .silent w none
  | called fails errands => exact .called fails errands.carries

/-- At its end a run is shown to the hooks and to the handler, announced and finished. -/
theorem conclude_eq (w : World) (spec : ResolvedSpec) (run : Run) (started : Instant)
    (outcome : Outcome) : ∃ shown told elapsed, Carries w shown ∧
      Reports outcome run.id shown told ∧ w.conclude spec run started outcome =
        (told.publishAbout run.id.task
          (terminalEvent spec.name run.id.number outcome elapsed)).onEngine
            (·.finish run.id outcome) :=
  ⟨_, _, _, (carries_callAfter w rfl ..).trans (carries_callAfter _ rfl ..),
    reports_callHandler .., rfl⟩

theorem Reports.follows {outcome : Outcome} {run : RunId} (h : Reports outcome run w w') :
    w.engine.Leads w'.engine ∧ w'.calls = w.calls ∧ w.engine.Retains w'.engine := by
  cases h with
  | silent none => exact ⟨.refl _, rfl, retains_of_eq rfl⟩
  | called fails h =>
      exact ⟨(leads_perform (m := .remark _) rfl).trans h.leads.leads, h.calls, h.retains⟩

theorem Deed.follows (deed : Deed w w') : w.engine.Leads w'.engine ∧ w'.calls = w.calls := by
  cases deed with
  | goes h => exact ⟨h.leads.leads, h.calls⟩
  | @conclude spec run hosts started outcome fits =>
      obtain ⟨shown, told, elapsed, carries, reports, is⟩ := conclude_eq w spec run started outcome
      obtain ⟨leads, calls, retains⟩ := reports.follows
      rw [is]
      have present := retains _ (carries.hosts hosts).present
      have announced : told.engine.Leads (told.engine.publishAbout run.id.task _) :=
        leads_perform (m := .announce run.id _) (Bool.and_eq_true_iff.mpr
          ⟨present, isAboutRun_terminalEvent spec.name run.id.number outcome elapsed⟩)
      refine ⟨(carries.leads.leads.trans leads).trans (announced.trans ?_), calls.trans carries.calls⟩
      exact leads_perform (m := .finish run.id outcome) rfl

theorem Deeds.follows (deeds : Deeds w w') :
    w.engine.Leads w'.engine ∧ w'.calls = w.calls := by
  induction deeds with
  | refl => exact ⟨.refl _, rfl⟩
  | tail _ last ih =>
      obtain ⟨leads, calls⟩ := last.follows
      exact ⟨ih.1.trans leads, calls.trans ih.2⟩

theorem Reports.nextCall {outcome : Outcome} {run : RunId} (h : Reports outcome run w w') :
    w'.nextCall = w.nextCall := by
  cases h with
  | silent none => rfl
  | called fails h => exact h.nextCall

theorem Deeds.nextCall (deeds : Deeds w w') : w'.nextCall = w.nextCall := by
  induction deeds with
  | refl => rfl
  | tail _ last ih =>
      refine Eq.trans ?_ ih
      cases last with
      | goes h => exact h.nextCall
      | @conclude spec run hosts started outcome fits =>
          obtain ⟨shown, told, elapsed, carries, reports, is⟩ := conclude_eq _ spec run started outcome
          rw [is]
          exact reports.nextCall.trans carries.nextCall

theorem goes_turnSentinel (w : World) (id : Nat) : Goes w (w.turnSentinel id) := by
  unfold turnSentinel
  split
  · exact .refl w
  · split
    · have ended : Carries w { w with sentinels := w.sentinels.filter (·.id != id) } :=
        carries_of_eq rfl rfl rfl
      exact (ended.trans (carries_trace ..)).toGoes
    · exact .refl w

/-! ## 4. Calls under way -/

/-- A shutdown is under way only in an engine that is stopping or has stopped. -/
def Orderly (w : World) : Prop :=
  ∀ c ∈ w.calls, ∀ s, c.stage = .shuttingDown s → w.engine.isClosing = true

/-- The engine has gone through a history of routine, and shutdowns under way are in their place. -/
structure Proceeds (w w' : World) : Prop where
  leads : w.engine.LeadsRoutinely w'.engine
  orderly : w.Orderly → w'.Orderly

theorem orderly_create (config : Config) (subscribers : List Subscriber) (hook : Option Hook)
    (handler : Handler) : (create config subscribers hook handler).Orderly :=
  fun _ mem => absurd mem List.not_mem_nil

/-- A shutdown that is under way was, or finds the engine closing. -/
theorem proceeds_of_calls (leads : w.engine.LeadsRoutinely w'.engine)
    (calls : ∀ c ∈ w'.calls, ∀ s, c.stage = .shuttingDown s →
      c.stage ∈ w.calls.map (·.stage) ∨ w'.engine.isClosing = true) : Proceeds w w' := by
  refine ⟨leads, ?_⟩
  intro orderly c mem s stage
  rcases calls c mem s stage with old | closing
  · obtain ⟨c', mem', same⟩ := List.mem_map.mp old
    exact leads.leads.isClosing (orderly c' mem' s (same.trans stage))
  · exact closing

theorem Goes.proceeds (h : Goes w w') : Proceeds w w' :=
  proceeds_of_calls h.leads fun _ mem _ _ => .inl (List.mem_map_of_mem (h.calls ▸ mem))

theorem proceeds_openCall {engine : Engine} (leads : w.engine.LeadsRoutinely engine)
    (stage : CallStage) (blocking : Bool)
    (closing : ∀ s, stage = .shuttingDown s → engine.isClosing = true) :
    Proceeds w ({ w with engine }.openCall stage blocking).1 := by
  apply proceeds_of_calls leads
  intro c mem s is
  rcases List.mem_append.mp mem with mem | mem
  · exact .inl (List.mem_map_of_mem mem)
  · rw [List.mem_singleton.mp mem] at is
    exact .inr (closing s is)

theorem proceeds_setStage {engine : Engine} (leads : w.engine.LeadsRoutinely engine) (id : Nat)
    (stage : CallStage) (closing : ∀ s, stage = .shuttingDown s → engine.isClosing = true) :
    Proceeds w ({ w with engine }.setStage id stage) := by
  apply proceeds_of_calls leads
  intro c mem s is
  obtain ⟨c', mem', rfl⟩ := List.mem_map.mp mem
  split at is
  · exact .inr (closing s is)
  · rw [if_neg ‹_›]
    exact .inl (List.mem_map_of_mem mem')

theorem proceeds_removeCall (leads : w.engine.LeadsRoutinely w'.engine) (calls : w'.calls = w.calls)
    (id : Nat) : Proceeds w (w'.removeCall id) :=
  proceeds_of_calls leads fun _ mem _ _ =>
    .inl (List.mem_map_of_mem (calls ▸ (List.mem_filter.mp mem).1))

theorem proceeds_abortCall (w : World) (id : Nat) : Proceeds w (w.abortCall id) := by
  refine proceeds_of_calls (.refl _) ?_
  intro c mem s is
  obtain ⟨c', mem', rfl⟩ := List.mem_map.mp mem
  refine .inl (List.mem_map.mpr ⟨c', mem', ?_⟩)
  split <;> rfl

theorem waitStage_ne (e : Engine) (waiter : WaiterId) (limit : WaitLimit) (s : Shutdown) :
    waitStage e waiter limit ≠ .shuttingDown s := by
  unfold waitStage
  split
  · rintro ⟨⟩
  · split
    · split <;> rintro ⟨⟩
    · split <;> rintro ⟨⟩

theorem leadsRoutinely_leaveIfAnswered (e : Engine) (waiter : WaiterId) (stage : CallStage) :
    e.LeadsRoutinely (leaveIfAnswered e waiter stage) := by
  unfold leaveIfAnswered
  split
  · split
    · exact .refl e
    · exact leadsRoutinely_perform (m := .detach waiter) rfl rfl
  · exact .refl e
  · exact .refl e

theorem proceeds_callShutdown (w : World) (token : Option Token) (blocking : Bool) :
    Proceeds w (w.callShutdown token blocking).1 := by
  cases token with
  | none =>
      exact proceeds_openCall (leadsRoutinely_perform (m := .shutdown ..) rfl rfl) _ blocking
        fun _ _ => isClosing_shutdown ..
  | some t =>
      exact proceeds_openCall (leadsRoutinely_perform (m := .shutdown (.token t) .zero) rfl rfl) _
        blocking fun _ _ => isClosing_shutdown ..

theorem proceeds_callWait (w : World) (t : TaskId) (limit : WaitLimit) :
    Proceeds w (w.callWait t limit).1 := by
  have asked : w.engine.LeadsRoutinely (w.engine.requestWaiting t).1 :=
    leadsRoutinely_perform (m := .requestWaiting t) rfl rfl
  unfold callWait
  generalize w.engine.requestWaiting t = answer at asked
  obtain ⟨engine, waiter, result⟩ := answer
  cases result with
  | error err => exact proceeds_openCall asked _ _ fun _ is => by cases is
  | ok admission =>
      exact proceeds_openCall (asked.trans (leadsRoutinely_leaveIfAnswered ..)) _ _
        fun s is => absurd is (waitStage_ne engine waiter limit s)

theorem proceeds_callWaitByName (w : World) (name : String) (limit : WaitLimit) :
    Proceeds w (w.callWaitByName name limit).1 := by
  unfold callWaitByName
  split
  · exact proceeds_callWait ..
  · exact proceeds_openCall (.refl _) _ _ fun _ is => by cases is

theorem proceeds_turnCall (orderly : w.Orderly) (id : Nat) : Proceeds w (w.turnCall id) := by
  unfold turnCall
  cases found : w.call? id with
  | none => exact (Goes.refl w).proceeds
  | some c =>
      have mem : c ∈ w.calls := List.mem_of_find?_eq_some found
      dsimp only
      split
      · -- it was given up
        unfold dropCall
        split
        · rename_i waiter limit stage
          have left := goes_perform (w := w) (m := .detach waiter) rfl rfl
          exact proceeds_removeCall left.leads left.calls c.id
        · exact proceeds_removeCall (.refl _) rfl _
        · exact proceeds_removeCall (.refl _) rfl _
      · split
        · rename_i s stage
          have closing := orderly c mem s stage
          have turned := leadsRoutinely_perform (m := .awaitShutdown s) rfl closing
          exact proceeds_setStage turned id _ fun _ _ => turned.leads.isClosing closing
        · exact proceeds_setStage (leadsRoutinely_leaveIfAnswered ..) id _
            fun s is => absurd is (waitStage_ne _ _ _ s)
        · exact (Goes.refl w).proceeds

/-! ## 5. Worlds -/

/-- One thing that happens in a world: one of its processes takes a turn or time goes on, or a
caller outside makes a call. -/
inductive Step : World → World → Prop where
  | machine {w w' : World} (step : machine.Step w w') : Step w w'
  | add (w : World) (spec : Spec) : Step w (w.add spec).1
  | start (w : World) (token : Token) : Step w { w with engine := (w.engine.start token).1 }
  | cancel (w : World) (token : Token) : Step w (w.onEngine (·.cancel token))
  | request (w : World) (t : TaskId) : Step w { w with engine := (w.engine.request t none).1 }
  | trigger (w : World) (name : String) : Step w { w with engine := (w.engine.trigger name).1 }
  | requestWaiting (w : World) (t : TaskId) :
      Step w { w with engine := (w.engine.requestWaiting t).1 }
  | detach (w : World) (waiter : WaiterId) : Step w (w.onEngine (·.detach waiter))
  | release (w : World) (t : TaskId) (permits : Nat) : Step w (w.release t permits)
  | callShutdown (w : World) (token : Option Token) (blocking : Bool) :
      Step w (w.callShutdown token blocking).1
  | callWait (w : World) (t : TaskId) (limit : WaitLimit) : Step w (w.callWait t limit).1
  | callWaitByName (w : World) (name : String) (limit : WaitLimit) :
      Step w (w.callWaitByName name limit).1
  | turnCall (w : World) (id : Nat) : Step w (w.turnCall id)
  | abortCall (w : World) (id : Nat) : Step w (w.abortCall id)
  | removeCall (w : World) (id : Nat) : Step w (w.removeCall id)

theorem proceeds_add (w : World) (spec : Spec) : Proceeds w (w.add spec).1 := by
  have added : w.engine.LeadsRoutinely (w.engine.add spec).1 :=
    leadsRoutinely_perform (m := .add spec) rfl rfl
  unfold add
  split
  · rename_i answer
    rw [answer] at added
    exact Goes.proceeds ⟨added, rfl, rfl⟩
  · rename_i answer
    rw [answer] at added
    exact Goes.proceeds ⟨added, rfl, rfl⟩

/-- Whatever happens is routine, or part of what a run does. -/
theorem proceeds_turn (orderly : w.Orderly) {p : Process} (able : w.able p = true) :
    Proceeds w (turn p w) ∨ Deeds w (turn p w) := by
  cases p with
  | worker i => exact .inl (goes_perform (m := .work i) rfl rfl).proceeds
  | pump => exact .inl (Goes.proceeds ⟨leadsRoutinely_turnPump w.engine, rfl, rfl⟩)
  | watcher => exact .inl (goes_perform (m := .watch) rfl able).proceeds
  | schedule t => exact .inl (goes_perform (m := .schedule t) rfl rfl).proceeds
  | run id => exact .inr (deeds_turnRun w id)
  | call id => exact .inl (proceeds_turnCall orderly id)
  | sentinel id => exact .inl (goes_turnSentinel w id).proceeds

theorem Step.proceeds (step : Step w w') (orderly : w.Orderly) : Proceeds w w' ∨ Deeds w w' := by
  have performs {m : Move} (routine : m.isRoutine = true) (allowed : w.engine.allows m = true) :
      Proceeds w (w.onEngine (·.perform m)) := (goes_perform routine allowed).proceeds
  cases step with
  | machine step =>
      cases step with
      | turn p live able => exact proceeds_turn orderly able
      | clock now later => exact .inl (performs (m := .clock now) rfl (decide_eq_true later))
  | add spec => exact .inl (proceeds_add w spec)
  | start token => exact .inl (performs (m := .start token) rfl rfl)
  | cancel token => exact .inl (carries_cancel w token).proceeds
  | request t => exact .inl (performs (m := .request t) rfl rfl)
  | trigger name => exact .inl (Goes.proceeds ⟨leadsRoutinely_trigger .., rfl, rfl⟩)
  | requestWaiting t => exact .inl (performs (m := .requestWaiting t) rfl rfl)
  | detach waiter => exact .inl (performs (m := .detach waiter) rfl rfl)
  | release t permits => exact .inl (carries_updateWorkshop w t _).proceeds
  | callShutdown token blocking => exact .inl (proceeds_callShutdown ..)
  | callWait t limit => exact .inl (proceeds_callWait ..)
  | callWaitByName name limit => exact .inl (proceeds_callWaitByName ..)
  | turnCall id => exact .inl (proceeds_turnCall orderly id)
  | abortCall id => exact .inl (proceeds_abortCall w id)
  | removeCall id => exact .inl (proceeds_removeCall (.refl _) rfl id)

theorem Step.orderly (step : Step w w') (orderly : w.Orderly) : w'.Orderly := by
  rcases step.proceeds orderly with proceeds | deeds
  · exact proceeds.orderly orderly
  · obtain ⟨leads, calls⟩ := deeds.follows
    exact fun c mem s stage => leads.isClosing (orderly c (calls ▸ mem) s stage)

theorem Step.leads (step : Step w w') (orderly : w.Orderly) : w.engine.Leads w'.engine := by
  rcases step.proceeds orderly with proceeds | deeds
  · exact proceeds.leads.leads
  · exact deeds.follows.1

section Reached

variable {config : Config} {subscribers : List Subscriber} {hook : Option Hook} {handler : Handler}

/-- What routine keeps, and the end of a run, holds of the engine of every world. -/
theorem keeps_reached {P : Engine → Prop}
    (routine : ∀ e e' : Engine, e.LeadsRoutinely e' → P e → P e')
    (conclude : ∀ (w : World) (spec : ResolvedSpec) (run : Run) (started : Instant)
      (outcome : Outcome), w.Hosts spec run → outcome.fits spec.reportCancellations = true →
      P w.engine → P (w.conclude spec run started outcome).engine)
    (reached : Relation.ReflTransGen Step (create config subscribers hook handler) w)
    (start : P (.create config subscribers)) : P w.engine := by
  have deeds {w w' : World} (deeds : Deeds w w') (h : P w.engine) : P w'.engine := by
    induction deeds with
    | refl => exact h
    | tail _ last ih =>
        cases last with
        | goes goes => exact routine _ _ goes.leads ih
        | conclude hosts started fits => exact conclude _ _ _ started _ hosts fits ih
  suffices both : w.Orderly ∧ P w.engine from both.2
  induction reached with
  | refl => exact ⟨orderly_create config subscribers hook handler, start⟩
  | tail _ step ih =>
      refine ⟨step.orderly ih.1, ?_⟩
      rcases step.proceeds ih.1 with proceeds | done
      · exact routine _ _ proceeds.leads ih.2
      · exact deeds done ih.2

/-- **Whatever a world does, its engine goes through a history.**  So what holds after every history
holds of the engine of every world, with every hook, handler and work, in every order of turns. -/
theorem engine_has_history
    (reached : Relation.ReflTransGen Step (create config subscribers hook handler) w) :
    (Engine.create config subscribers).Leads w.engine :=
  keeps_reached (fun _ _ routine leads => leads.trans routine.leads)
    (fun w _ _ started _ hosts fits leads =>
      leads.trans (Deed.conclude w hosts started fits).follows.1) reached (.refl _)

end Reached

end World

end TaskEngine
