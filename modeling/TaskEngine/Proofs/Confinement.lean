/-
  TaskEngine/Proofs/Confinement.lean
  ==================================
  **A timeout is confined to its run.**

  The tokens of runs are distinct children of the run token (`Handouts.lean`), and a run cancels by
  itself what its work names and, when its time is up, its own token (`Conduct.lean`).  So a token
  that no caller and no work cancels is cancelled only with the run token, or it belongs to a run
  that is gone (`World.Harmless`); and what a timeout cancels is of no account to anybody else
  (`World.Confined`).
-/
import TaskEngine.Proofs.Conduct

namespace TaskEngine

namespace Engine

variable {e e' e'' : Engine} {s : Token}

/-! ## 1. Histories that do not cancel a token -/

/-- The second state comes about from the first, and no move cancels `s`. -/
def LeadsSparing (s : Token) (e e' : Engine) : Prop :=
  ∃ moves, e.admits moves = true ∧ Move.cancel s ∉ moves ∧ e.after moves = e'

theorem LeadsSparing.refl (e : Engine) : LeadsSparing s e e := ⟨[], rfl, List.not_mem_nil, rfl⟩

theorem LeadsSparing.trans (first : LeadsSparing s e e') (second : LeadsSparing s e' e'') :
    LeadsSparing s e e'' := by
  obtain ⟨moves, admitted, spares, rfl⟩ := first
  obtain ⟨more, admitted', spares', rfl⟩ := second
  refine ⟨moves ++ more, (admits_append ..).mpr ⟨admitted, admitted'⟩, ?_, after_append ..⟩
  exact fun mem => (List.mem_append.mp mem).elim spares spares'

theorem LeadsSparing.leads (h : LeadsSparing s e e') : e.Leads e' := by
  obtain ⟨moves, admitted, -, after⟩ := h
  exact ⟨moves, admitted, after⟩

theorem sparing_perform {m : Move} (other : m ≠ .cancel s) (allowed : e.allows m = true) :
    LeadsSparing s e (e.perform m) :=
  ⟨[m], (admits_cons ..).mpr ⟨allowed, rfl⟩, fun mem => other (List.mem_singleton.mp mem).symm, rfl⟩

theorem sparing_turnPump (e : Engine) : LeadsSparing s e e.turnPump := by
  have receives (n : Nat) (e : Engine) : LeadsSparing s e (e.after (List.replicate n .receive)) := by
    induction n generalizing e with
    | zero => exact .refl e
    | succ n ih => exact (sparing_perform (m := .receive) nofun rfl).trans (ih _)
  obtain ⟨n, reads⟩ := turnPump_eq_receives e
  rw [reads]
  exact receives n e

theorem sparing_trigger (e : Engine) (name : String) : LeadsSparing s e (e.trigger name).1 := by
  unfold trigger
  cases e.lookup? name with
  | none => exact .refl e
  | some t => exact sparing_perform (m := .request t) nofun rfl

/-! ## 2. Tokens that nobody cancels -/

/-- If the token was cancelled it is the run token, or it was handed to a run that is gone. -/
def Harmless (e : Engine) (s : Token) : Prop :=
  s ∈ e.cancellation.cancelled → e.phase ≠ .notStarted ∧ s = e.runToken ∨ e.Spent s

theorem Harmless.leads (h : e.Harmless s) (leads : e.Leads e')
    (same : s ∈ e'.cancellation.cancelled →
      s ∈ e.cancellation.cancelled ∨ e'.phase ≠ .notStarted ∧ s = e'.runToken) : e'.Harmless s := by
  intro cancelled
  rcases same cancelled with before | own
  · rcases h before with ⟨started, rfl⟩ | spent
    · obtain ⟨started', allots⟩ := leads.allots started
      exact .inl ⟨started', allots.runToken.symm⟩
    · exact .inr (spent.leads leads)
  · exact .inl own

theorem Harmless.sparing (h : e.Harmless s) (watched : e.Watched) (leads : LeadsSparing s e e') :
    e'.Harmless s := by
  refine h.leads leads.leads fun cancelled => ?_
  obtain ⟨moves, admitted, spares, rfl⟩ := leads
  rcases mem_cancelled_after watched admitted cancelled with before | moved | own
  · exact .inl before
  · exact absurd moved spares
  · exact .inr own

/-- The token of a run in flight that is harmless is cancelled exactly if the run token is. -/
theorem Issued.isCancelled_eq (issued : e.Issued) {run : Run} (mem : run ∈ e.runs)
    (harmless : e.Harmless run.token) : e.isCancelled run.token = e.isCancelled e.runToken := by
  obtain ⟨n, -, hangs⟩ := issued.hangs mem
  rw [Bool.eq_iff_iff]
  constructor
  · intro cancelled
    obtain ⟨u, was, within⟩ := List.any_eq_true.mp cancelled
    rw [← hangs] at within
    rcases Token.isWithin_child_iff.mp within with own | above
    · rw [hangs] at own
      subst own
      rcases harmless was with ⟨-, same⟩ | spent
      · exact absurd (hangs.trans same) (Token.child_ne e.runToken n)
      · exact absurd (List.mem_map_of_mem (mem_handed mem)) spent.gone
    · exact List.any_eq_true.mpr ⟨u, was, above⟩
  · intro cancelled
    rw [← hangs]
    exact Cancellation.isCancelled_of_isWithin (e.runToken.isWithin_child n) cancelled

end Engine

namespace World

open Engine

variable {w w' : World} {s : Token}

theorem sparing_leaveIfAnswered (e : Engine) (waiter : WaiterId) (stage : CallStage) :
    LeadsSparing s e (leaveIfAnswered e waiter stage) := by
  unfold leaveIfAnswered
  split
  · split
    · exact .refl e
    · exact sparing_perform (m := .detach waiter) nofun rfl
  · exact .refl e
  · exact .refl e

theorem sparing_callShutdown (w : World) (token : Option Token) (blocking : Bool) :
    LeadsSparing s w.engine (w.callShutdown token blocking).1.engine := by
  cases token with
  | none => exact sparing_perform (m := .shutdown ..) nofun rfl
  | some t => exact sparing_perform (m := .shutdown (.token t) .zero) nofun rfl

theorem sparing_callWait (w : World) (t : TaskId) (limit : WaitLimit) :
    LeadsSparing s w.engine (w.callWait t limit).1.engine := by
  have asked : LeadsSparing s w.engine (w.engine.requestWaiting t).1 :=
    sparing_perform (m := .requestWaiting t) nofun rfl
  unfold callWait
  generalize w.engine.requestWaiting t = answer at asked
  obtain ⟨engine, waiter, result⟩ := answer
  cases result with
  | error err => exact asked
  | ok admission => exact asked.trans (sparing_leaveIfAnswered ..)

theorem sparing_callWaitByName (w : World) (name : String) (limit : WaitLimit) :
    LeadsSparing s w.engine (w.callWaitByName name limit).1.engine := by
  unfold callWaitByName
  split
  · exact sparing_callWait ..
  · exact .refl _

theorem sparing_turnCall (orderly : w.Orderly) (id : Nat) :
    LeadsSparing s w.engine (w.turnCall id).engine := by
  unfold turnCall
  cases found : w.call? id with
  | none => exact .refl _
  | some c =>
      have mem : c ∈ w.calls := List.mem_of_find?_eq_some found
      dsimp only
      split
      · -- it was given up
        unfold dropCall
        split
        · exact sparing_perform (m := .detach _) nofun rfl
        · exact .refl _
        · exact .refl _
      · split
        · rename_i d stage
          exact sparing_perform (m := .awaitShutdown d) nofun (orderly c mem d stage)
        · exact sparing_leaveIfAnswered ..
        · exact .refl _

theorem sparing_turnSentinel (w : World) (id : Nat) :
    LeadsSparing s w.engine (w.turnSentinel id).engine := by
  unfold turnSentinel
  split
  · exact .refl _
  · split
    · exact sparing_perform (m := .remark _) nofun rfl
    · exact .refl _

theorem sparing_add (w : World) (spec : Spec) : LeadsSparing s w.engine (w.add spec).1.engine := by
  have added : LeadsSparing s w.engine (w.engine.add spec).1 :=
    sparing_perform (m := .add spec) nofun rfl
  unfold add
  split
  · rename_i answer
    rwa [answer] at added
  · rename_i answer
    rwa [answer] at added

/-- Whatever is neither a turn of a run nor says so cancels no token but the run token. -/
theorem sparing_perform_act {a : Act} (orderly : w.Orderly) (allowed : w.allows a = true)
    (plain : a.isRedraw = false) (turns : ∀ id, a ≠ .turn (.run id)) (other : a ≠ .cancel s) :
    LeadsSparing s w.engine (w.perform a).engine := by
  cases a with
  | turn p =>
      obtain ⟨-, able⟩ := of_decide_eq_true allowed
      cases p with
      | worker i => exact sparing_perform (m := .work i) nofun rfl
      | pump => exact sparing_turnPump ..
      | watcher => exact sparing_perform (m := .watch) nofun able
      | schedule t => exact sparing_perform (m := .schedule t) nofun rfl
      | run id => exact absurd rfl (turns id)
      | call id => exact sparing_turnCall orderly id
      | sentinel id => exact sparing_turnSentinel ..
  | clock now => exact sparing_perform (m := .clock now) nofun allowed
  | add spec => exact sparing_add ..
  | start token => exact sparing_perform (m := .start token) nofun rfl
  | cancel token =>
      have different : Move.cancel token ≠ .cancel s := fun same => other (by cases same; rfl)
      exact sparing_perform different rfl
  | request t => exact sparing_perform (m := .request t) nofun rfl
  | trigger name => exact sparing_trigger ..
  | requestWaiting t => exact sparing_perform (m := .requestWaiting t) nofun rfl
  | detach waiter => exact sparing_perform (m := .detach waiter) nofun rfl
  | release t permits => exact .refl _
  | callShutdown token blocking => exact sparing_callShutdown ..
  | callWait t limit => exact sparing_callWait ..
  | callWaitByName name limit => exact sparing_callWaitByName ..
  | turnCall id => exact sparing_turnCall orderly id
  | abortCall id => exact .refl _
  | removeCall id => exact .refl _
  | redraw mood => cases plain

/-! ## 3. What holds in every world -/

/-- The runs in flight have come to what suits their tasks. -/
def Suited (w : World) : Prop :=
  ∀ (id : RunId) (p : Progress) (task : TaskRecord), w.engine.progress? id = some p →
    w.engine.tasks[id.task]? = some task → p.Suits task.spec

/-- The engine has a history, every run its record, and what it has come to suits it. -/
structure Attested (w : World) : Prop where
  history : ∃ config subscribers, (Engine.create config subscribers).Leads w.engine
  recorded : w.Recorded
  suited : w.Suited

/-- What every change keeps holds of the engine. -/
theorem Attested.invariant (h : w.Attested) {P : Engine → Prop}
    (change : ∀ l e e', Change l e e' → P e → P e')
    (start : ∀ config subscribers, P (.create config subscribers)) : P w.engine := by
  obtain ⟨config, subscribers, leads⟩ := h.history
  exact leads.keeps change (start config subscribers)

theorem Attested.watched (h : w.Attested) : w.engine.Watched := by
  obtain ⟨config, subscribers, moves, admitted, after⟩ := h.history
  exact after ▸ (watched_create config subscribers).after admitted

theorem Attested.issued (h : w.Attested) : w.engine.Issued := by
  obtain ⟨config, subscribers, leads⟩ := h.history
  exact leads.issued

/-- An engine with runs in flight was started. -/
theorem Attested.started (h : w.Attested) {run : Run} (mem : run ∈ w.engine.runs) :
    w.engine.phase ≠ .notStarted := by
  have quiet : w.engine.Quiet := h.invariant (fun _ _ _ => Quiet.change) quiet_create
  intro fresh
  rw [(quiet (.inl fresh)).1] at mem
  cases mem

theorem Attested.found (h : w.Attested) {run : Run} (mem : run ∈ w.engine.runs) :
    w.engine.run? run.id = some run := by
  have housed : w.engine.Housed := h.invariant (fun _ _ _ => Housed.change) housed_create
  cases found : w.engine.run? run.id with
  | none => exact absurd (beq_self_eq_true run.id) (List.find?_eq_none.mp found run mem)
  | some other =>
      obtain ⟨mem', same⟩ := mem_of_run? found
      rw [List.inj_on_of_nodup_map housed.unique mem' mem same]

/-- A run in flight, its task, and what it has come to. -/
theorem Attested.suits (h : w.Attested) {run : Run} (mem : run ∈ w.engine.runs) :
    ∃ task, w.engine.tasks[run.id.task]? = some task ∧ run.progress.Suits task.spec := by
  obtain ⟨task, known, -⟩ := h.recorded.stands run.id (h.recorded.numbered.inFlight run mem)
  have progress : w.engine.progress? run.id = some run.progress := by
    rw [progress?, h.found mem]
    rfl
  exact ⟨task, known, h.suited run.id _ task progress known⟩

/-! ### When the time of a run is up -/

/-- The time of the run was up, and it has failed for that reason.  Its own token was cancelled and
nothing else was, and it is gone for good; the run token, the gate, the schedules and all other runs
in flight are as they were. -/
structure Confined (run : Run) (w w' : World) : Prop where
  failed : ∃ task started limit, w.engine.tasks[run.id.task]? = some task ∧
    task.spec.timeout = some limit ∧ (started.later limit).isDue w.now = true ∧
    w'.engine.marks run.id = w.engine.marks run.id ++
      closing w.hook task.spec run.id (.failed (.timeout limit)) (w.now.since started)
  gone : w'.engine.run? run.id = none
  spent : w'.engine.Spent run.token
  cancelled : ∀ t, w'.engine.isCancelled t = (t.isWithin run.token || w.engine.isCancelled t)
  runToken : w'.engine.runToken = w.engine.runToken ∧
    w'.engine.isCancelled w.engine.runToken = w.engine.isCancelled w.engine.runToken
  gate : w'.engine.refusal? = w.engine.refusal?
  schedules : w'.engine.schedules = w.engine.schedules
  others : ∀ other ∈ w.engine.runs, other.id ≠ run.id → other ∈ w'.engine.runs ∧
    w'.engine.isCancelled other.token = w.engine.isCancelled other.token

theorem errands_dropWork (w : World) (spec : ResolvedSpec) (run : Run) (call : Nat) :
    Errands w (w.dropWork spec run call) :=
  ((Errand.workshop ..).errands.trans (Errand.trace ..).errands).trans (Errand.cancel ..).errands

theorem allows_of_able {run : Run} (mem : run ∈ w.engine.runs) (able : w.able (.run run.id) = true) :
    w.allows (.turn (.run run.id)) = true := by
  have live : Process.run run.id ∈ w.live := by
    simp only [live, List.mem_append, List.mem_map]
    exact .inl (.inl (.inr ⟨run, mem, rfl⟩))
  exact decide_eq_true ⟨live, able⟩

/-- A run whose time is up is able to take its turn. -/
theorem allows_of_timesOut {run : Run} (found : w.engine.run? run.id = some run)
    (up : w.timesOut run = true) : w.allows (.turn (.run run.id)) = true := by
  have can : w.canRun run = true := by
    unfold timesOut at up
    unfold canRun
    cases progress : run.progress with
    | launched => rfl
    | working call started limit pause rest =>
        rw [progress] at up
        exact Bool.or_eq_true_iff.mpr (.inr (Bool.and_eq_true_iff.mp up).2)
  refine allows_of_able (mem_of_run? found).1 ?_
  rw [World.able, found]
  exact can

theorem minds_dropWork (w : World) (spec : ResolvedSpec) (run : Run) (call : Nat) :
    Minds (· = run.token) spec run.id w (w.dropWork spec run call) :=
  ((minds_of_engine rfl).trans (minds_trace ..)).trans (minds_cancel _ rfl)

theorem Attested.cancelled_turnRun (h : w.Attested) {run : Run} (mem : run ∈ w.engine.runs)
    (up : w.timesOut run = true) : (w.turnRun run.id).engine.cancellation.cancelled =
      run.token :: w.engine.cancellation.cancelled := by
  obtain ⟨task, known, suits⟩ := h.suits mem
  obtain ⟨call, started, -, -, limit, -, -, turn⟩ := turnRun_of_timesOut (h.found mem) known suits up
  have ended : Minds (fun _ => False) task.spec run.id (w.dropWork task.spec run call)
      (w.turnRun run.id) := turn ▸ minds_conclude ..
  exact ended.cancelled_eq

theorem Attested.apart (h : w.Attested) {run : Run} (mem : run ∈ w.engine.runs) :
    w.engine.Apart run.token := by
  obtain ⟨n, -, hangs⟩ := h.issued.hangs mem
  rw [Apart, ← hangs]
  exact Token.isWithin_child_eq_false ..

theorem Attested.confined (h : w.Attested) {run : Run} (mem : run ∈ w.engine.runs)
    (up : w.timesOut run = true) : Confined run w (w.turnRun run.id) := by
  have found := h.found mem
  obtain ⟨task, known, suits⟩ := h.suits mem
  obtain ⟨call, started, pause, rest, limit, progress, timeout, turn⟩ :=
    turnRun_of_timesOut found known suits up
  have due : (started.later limit).isDue w.now = true := by
    simp only [timesOut, progress, Bool.and_eq_true] at up
    exact up.2
  have list := h.cancelled_turnRun mem up
  have boards : w.Boards w.hook task.spec run :=
    ⟨⟨Option.isSome_of_eq_some found, task, known, rfl⟩, h.recorded.numbered, rfl⟩
  have drops := (errands_dropWork w task.spec run call).launches
  have ends := adds_conclude ((drops.adds run.id).boards boards) started (.failed (.timeout limit))
  have minds : Minds (· = run.token) task.spec run.id w (w.turnRun run.id) :=
    turn ▸ (minds_dropWork ..).trans (minds_conclude ..)
  have begun := drops.engine.begun (h.recorded.numbered.inFlight run mem)
  have gone := ends.engine.progress (drops.engine.numbered h.recorded.numbered) begun
  rw [← turn] at ends gone
  rw [progress?, Option.map_eq_none_iff] at gone
  have spent := minds.allots.spent (minds.phase ▸ h.started mem) h.issued mem gone
  have cancelled (t : Token) : (w.turnRun run.id).engine.isCancelled t =
      (t.isWithin run.token || w.engine.isCancelled t) := by
    rw [isCancelled, Cancellation.isCancelled, list]
    rfl
  have runToken : (w.turnRun run.id).engine.isCancelled w.engine.runToken =
      w.engine.isCancelled w.engine.runToken := by
    rw [cancelled, h.apart mem, Bool.false_or]
  constructor
  case failed =>
    refine ⟨task, started, limit, known, timeout, due, ?_⟩
    rw [ends.engine.marks, drops.engine.marks]
    rfl
  case gone => exact gone
  case spent => exact spent
  case cancelled => exact cancelled
  case runToken => exact ⟨minds.allots.runToken, runToken⟩
  case gate =>
    have phase : (w.turnRun run.id).engine.phase = w.engine.phase := minds.phase
    simp only [refusal?, phase, minds.allots.runToken, runToken]
  case schedules => exact minds.schedules
  case others =>
    intro other mem' different
    have stays := minds.stays other mem' different
    refine ⟨stays, ?_⟩
    rw [cancelled, spent.apart (minds.allots.issued h.issued) stays, Bool.false_or]

/-! ### Every act -/

/-- A run that is as it was, or has just been launched, has come to what suits its task. -/
theorem Suited.stays (suited : w.Suited) (numbered : w.engine.Numbered)
    (numbered' : w'.engine.Numbered) (grows : Grows w.engine w'.engine) {id : RunId}
    (stays : w.engine.hasBegun id → w'.engine.progress? id = w.engine.progress? id)
    (launched : ¬w.engine.hasBegun id → w'.engine.hasBegun id →
      w'.engine.progress? id = some .launched) (p : Progress) (task : TaskRecord)
    (come : w'.engine.progress? id = some p) (known : w'.engine.tasks[id.task]? = some task) :
    p.Suits task.spec := by
  by_cases begun : w.engine.hasBegun id
  · obtain ⟨old, known', -⟩ := numbered.begun id begun
    obtain ⟨new, same, later⟩ := grows _ old known'
    obtain rfl := Option.some.inj (same.symm.trans known)
    rw [later.spec]
    exact suited id p old (stays begun ▸ come) known'
  · have begun' := numbered'.hasBegun_of_progress? (Option.isSome_of_eq_some come)
    obtain rfl := Option.some.inj ((launched begun begun').symm.trans come)
    trivial

theorem Attested.suited_turnRun (h : w.Attested) (own : RunId) : (w.turnRun own).Suited := by
  cases found : w.engine.run? own with
  | none =>
      rw [turnRun_of_absent found]
      exact h.suited
  | some run =>
      obtain ⟨mem, rfl⟩ := mem_of_run? found
      obtain ⟨-, old, known, more, becomes, adds, -, -⟩ :=
        h.recorded.takes_turnRun (Option.isSome_of_eq_some found)
      have numbered := h.recorded.numbered
      intro id p task come known'
      by_cases same : id = run.id
      · subst same
        obtain ⟨new, there, later⟩ := adds.engine.grows _ old known
        obtain rfl := Option.some.inj (there.symm.trans known')
        obtain ⟨_, here, suits⟩ := h.suits mem
        obtain rfl := Option.some.inj (here.symm.trans known)
        rw [later.spec]
        cases up : w.timesOut run with
        | true =>
            rw [progress?, (h.confined mem up).gone] at come
            cases come
        | false =>
            rcases (minds_turnRun found known suits up).progress p come with before | suits
            · exact h.suited run.id p _ before known
            · exact suits
      · exact h.suited.stays numbered (adds.engine.numbered numbered) adds.engine.grows
          (adds.engine.stays numbered id same) (adds.engine.launched numbered id same) p task come
          known'

theorem Attested.leads {a : Act} (h : w.Attested) (allowed : w.allows a = true)
    (plain : a.isRedraw = false) : w.engine.Leads (w.perform a).engine :=
  (step_iff.mpr ⟨a, plain, allowed, rfl⟩).leads h.recorded.orderly

theorem Attested.perform {a : Act} (h : w.Attested) (allowed : w.allows a = true)
    (plain : a.isRedraw = false) : (w.perform a).Attested := by
  have recorded := h.recorded.perform allowed
  obtain ⟨config, subscribers, leads⟩ := h.history
  refine ⟨⟨config, subscribers, leads.trans (h.leads allowed plain)⟩, recorded, ?_⟩
  by_cases own : ∃ id, a = .turn (.run id)
  · obtain ⟨id, rfl⟩ := own
    exact h.suited_turnRun id
  · have launches := (launches_perform_act h.recorded.orderly allowed plain
      fun id is => own ⟨id, is⟩).engine
    have numbered := h.recorded.numbered
    intro id
    exact h.suited.stays numbered (launches.numbered numbered) launches.grows
      (launches.progress numbered id) (launches.launched numbered id)

theorem attested_create (config : Config) (subscribers : List Subscriber) (hook : Option Hook)
    (handler : Handler) : (create config subscribers hook handler).Attested :=
  ⟨⟨config, subscribers, .refl _⟩, recorded_create .., fun _ _ _ none => nomatch none⟩

/-- What no caller and no work cancels stays harmless. -/
theorem Attested.harmless {a : Act} (h : w.Attested) (allowed : w.allows a = true)
    (plain : a.isRedraw = false) (other : a ≠ .cancel s)
    (unnamed : ∀ task ∈ w.engine.tasks, ¬task.spec.mayCancel s) (harmless : w.engine.Harmless s) :
    (w.perform a).engine.Harmless s := by
  by_cases own : ∃ id, a = .turn (.run id)
  · obtain ⟨id, rfl⟩ := own
    have step := h.leads allowed plain
    show (w.turnRun id).engine.Harmless s
    cases found : w.engine.run? id with
    | none =>
        rw [turnRun_of_absent found]
        exact harmless
    | some run =>
        obtain ⟨mem, rfl⟩ := mem_of_run? found
        obtain ⟨task, known, suits⟩ := h.suits mem
        cases up : w.timesOut run with
        | false =>
            -- the work does not name the token, so it is not among those that were cancelled
            obtain ⟨newer, cancelled, named⟩ := (minds_turnRun found known suits up).cancelled
            refine harmless.leads step fun now => .inl ?_
            rw [cancelled] at now
            exact (List.mem_append.mp now).resolve_left fun new =>
              unnamed task (List.mem_of_getElem? known) (named s new)
        | true =>
            intro now
            rcases List.mem_cons.mp (h.cancelled_turnRun mem up ▸ now) with rfl | before
            · exact .inr (h.confined mem up).spent
            · exact harmless.leads step (fun _ => .inl before) now
  · exact harmless.sparing h.watched (sparing_perform_act h.recorded.orderly allowed plain
      (fun id is => own ⟨id, is⟩) other)

theorem Attested.after {acts : List Act} (h : w.Attested) (plain : ∀ a ∈ acts, a.isRedraw = false)
    (admitted : w.admits acts = true) :
    (w.after acts).Attested ∧ w.engine.Leads (w.after acts).engine := by
  induction acts generalizing w with
  | nil => exact ⟨h, .refl _⟩
  | cons a acts ih =>
      obtain ⟨allowed, rest⟩ := (admits_cons ..).mp admitted
      obtain ⟨first, others⟩ := List.forall_mem_cons.mp plain
      obtain ⟨attested, leads⟩ := ih (h.perform allowed first) others rest
      exact ⟨attested, (h.leads allowed first).trans leads⟩

theorem Attested.harmless_after {acts : List Act} (h : w.Attested)
    (plain : ∀ a ∈ acts, a.isRedraw = false) (admitted : w.admits acts = true)
    (uncancelled : .cancel s ∉ acts)
    (unnamed : ∀ task ∈ (w.after acts).engine.tasks, ¬task.spec.mayCancel s)
    (harmless : w.engine.Harmless s) : (w.after acts).engine.Harmless s := by
  induction acts generalizing w with
  | nil => exact harmless
  | cons a acts ih =>
      obtain ⟨allowed, rest⟩ := (admits_cons ..).mp admitted
      obtain ⟨first, others⟩ := List.forall_mem_cons.mp plain
      have other : a ≠ .cancel s := fun same => uncancelled (same ▸ List.mem_cons_self)
      refine ih (h.perform allowed first) others rest
        (fun mem => uncancelled (List.mem_cons_of_mem _ mem)) unnamed
        (h.harmless allowed first other ?_ harmless)
      -- the tasks that are registered now are registered with the same work in the end
      intro task mem
      obtain ⟨t, known⟩ := List.mem_iff_getElem?.mp mem
      obtain ⟨new, known', later⟩ := (h.after plain admitted).2.grows t task known
      have same := unnamed new (List.mem_of_getElem? known')
      rwa [later.spec] at same

/-! ## 4. All histories -/

/-- **A timeout is confined to its run.**  Whatever is called and done, and in whatever order: as long
as no caller and no work cancels the token of a run itself, that token is cancelled exactly if the run
token is.  When the time of a run is up and its work still waits, the turn it takes then cancels its
token and nothing else, and ends the run as failed by its timeout, whether or not its task reports
cancellations; the run token, the gate, the schedules and all other runs in flight are as they were.
No later run hangs on that token, and whether it is cancelled makes no difference to anything the
engine does from then on. -/
theorem timeouts_confined (config : Config) (subscribers : List Subscriber) (hook : Option Hook)
    (handler : Handler) {acts : List Act} (plain : ∀ a ∈ acts, a.isRedraw = false)
    (admitted : (create config subscribers hook handler).admits acts = true) :
    let w := (create config subscribers hook handler).after acts
    (∀ run ∈ w.engine.runs, .cancel run.token ∉ acts →
      (∀ task ∈ w.engine.tasks, ¬task.spec.mayCancel run.token) →
      w.engine.isCancelled run.token = w.engine.isCancelled w.engine.runToken) ∧
    ∀ run ∈ w.engine.runs, w.timesOut run = true →
      let w' := w.turnRun run.id
      w.allows (.turn (.run run.id)) = true ∧ Confined run w w' ∧
      (∀ later, (∀ a ∈ later, a.isRedraw = false) → w'.admits later = true →
        ∀ other ∈ (w'.after later).engine.runs, other.token.isWithin run.token = false) ∧
      ∀ moves, (∀ m ∈ moves, m.isBoundBy run.token = false) → w'.engine.admits moves = true →
        (w'.engine.without run.token).admits (moves.filter (!·.isOf run.token)) = true ∧
        (w'.engine.without run.token).after (moves.filter (!·.isOf run.token)) =
          (w'.engine.after moves).without run.token := by
  intro w
  have start := attested_create config subscribers hook handler
  have attested : w.Attested := (start.after plain admitted).1
  constructor
  · intro run mem uncancelled unnamed
    exact attested.issued.isCancelled_eq mem (start.harmless_after plain admitted uncancelled unnamed
      fun none => nomatch none)
  · intro run mem up w'
    have confined := attested.confined mem up
    have allowed := allows_of_timesOut (attested.found mem) up
    have attested' : w'.Attested := attested.perform allowed rfl
    refine ⟨allowed, confined, ?_, ?_⟩
    · intro later plain' admitted' other mem'
      obtain ⟨last, leads⟩ := attested'.after plain' admitted'
      exact (confined.spent.leads leads).apart last.issued mem'
    · intro moves unbound admitted'
      have apart : w'.engine.Apart run.token := by
        rw [Apart, confined.runToken.1]
        exact attested.apart mem
      exact without_after attested'.watched confined.spent.started apart unbound admitted'

/-- A task whose runs wait to be cancelled, for so long at most. -/
def waiting (name : String) (timeout : Option Duration) : Spec :=
  { work := .plays [[.untilCancel]], schedule := .onDemand, name, timeout }

/-- Two runs begin, and the time of the first is up. -/
def hurriedActs : List Act :=
  [.add (waiting "short" (some ⟨5⟩)), .add (waiting "long" none), .start (.named "t"), .request 0,
    .request 1, .turn (.run ⟨0, 1⟩), .turn (.run ⟨1, 1⟩), .clock ⟨5⟩]

def hurriedRun : Run where
  id := ⟨0, 1⟩
  merged := false
  token := ((Token.named "t").child 0).child 1
  waiters := []
  progress := .working 1 ⟨0⟩ (some (⟨5⟩, ⟨5⟩)) (.cancel false) []

def unhurriedRun : Run where
  id := ⟨1, 1⟩
  merged := false
  token := ((Token.named "t").child 0).child 2
  waiters := []
  progress := .working 1 ⟨0⟩ none (.cancel false) []

theorem timeouts_confined_hurried :
    let w := (create {} [] none .logging).after hurriedActs
    w.engine.runs = [hurriedRun, unhurriedRun] ∧ w.timesOut hurriedRun = true ∧
    Confined hurriedRun w (w.turnRun ⟨0, 1⟩) ∧ unhurriedRun ∈ (w.turnRun ⟨0, 1⟩).engine.runs ∧
    w.engine.isCancelled unhurriedRun.token = false := by
  intro w
  have runs : w.engine.runs = [hurriedRun, unhurriedRun] := by decide
  have first : hurriedRun ∈ w.engine.runs := by simp [runs]
  have second : unhurriedRun ∈ w.engine.runs := by simp [runs]
  have up : w.timesOut hurriedRun = true := by decide
  have plain : ∀ a ∈ hurriedActs, a.isRedraw = false := by decide
  obtain ⟨alike, confined⟩ := timeouts_confined {} [] none .logging plain (by decide)
  have cut : Confined hurriedRun w (w.turnRun ⟨0, 1⟩) := (confined hurriedRun first up).2.1
  have same := alike unhurriedRun second (by simp [hurriedActs]) (by decide)
  exact ⟨runs, up, cut, (cut.others unhurriedRun second (by decide)).1, same.trans (by decide)⟩

end World

end TaskEngine
