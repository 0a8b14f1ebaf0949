/-
  TaskEngine/Proofs/Announcements.lean
  ====================================
  **The start and the request to stop are announced once.**

  Shutdowns and the watcher of the run token race for the step from running to stopping, and either
  cancels the run token, for which the other waits.  Whoever comes first takes the step and announces
  it; the other finds it taken (`Engine.Turn`).  So the announcements are a function of the phase and
  of whether the engine was ever running (`Proclaims`).

  The tokens that an engine cancels by itself, and those that it hands to its runs, hang on the token
  it was started with; that one is cancelled by callers only (`mem_cancelled_after`).
-/
import TaskEngine.Proofs.Tokens

namespace TaskEngine

/-- No token hangs on its own child. -/
theorem Token.isWithin_child_eq_false (t : Token) (n : Nat) : t.isWithin (t.child n) = false := by
  rw [Bool.eq_false_iff]
  intro within
  exact absurd (isWithin_iff.mp within).2.length_le (Nat.not_succ_le_self t.path.length)

namespace Engine

variable {e e' : Engine}

/-! ## 1. Announcements -/

/-- The engine was running at some moment of the history. -/
def HasRun (e : Engine) (moves : List Move) : Prop :=
  ∃ first, first <+: moves ∧ (e.after first).phase = .running

/-- What was announced, the newest first, is what the phase says. -/
def Proclaims (e : Engine) : Prop :=
  match e.phase with
  | .notStarted => e.heralds = []
  | .running => e.heralds = [.managerStarted]
  | .stopping => e.heralds = [.shutdownRequested, .managerStarted]
  | .stopped => e.heralds = [] ∨ e.heralds = [.shutdownRequested, .managerStarted]

theorem proclaims_create (config : Config) (subscribers : List Subscriber) :
    (create config subscribers).Proclaims :=
  rfl

theorem Proclaims.turn {m : Move} (h : e.Proclaims) (turn : Turn e m e') : e'.Proclaims := by
  cases turn with
  | stays _ phase runToken watching cancelled heralds =>
      rw [Proclaims, phase, heralds]
      exact h
  | cancels token => exact h
  | starts token fresh phase runToken watching cancelled heralds =>
      rw [Proclaims, fresh] at h
      rw [Proclaims, phase, heralds, h]
  | closes _ running phase runToken cancelled heralds =>
      rw [Proclaims, running] at h
      rw [Proclaims, phase, heralds, h]
  | stops _ due halts =>
      rw [Proclaims, halts.phase, halts.heralds]
      rcases due with fresh | stopping
      · rw [Proclaims, fresh] at h
        exact .inl h
      · rw [Proclaims, stopping] at h
        exact .inr h

/-- What was announced stays announced. -/
theorem Turn.heralds_ne_nil {m : Move} (turn : Turn e m e') (told : e.heralds ≠ []) :
    e'.heralds ≠ [] := by
  cases turn with
  | stays _ phase runToken watching cancelled heralds => rwa [heralds]
  | cancels token => exact told
  | starts token fresh phase runToken watching cancelled heralds => simp [heralds]
  | closes _ running phase runToken cancelled heralds => simp [heralds]
  | stops _ due halts => rwa [halts.heralds]

/-- An engine that has stopped has nothing more to announce of its way. -/
theorem Turn.of_stopped {m : Move} (turn : Turn e m e') (stopped : e.phase = .stopped) :
    e'.phase = .stopped ∧ e'.heralds = e.heralds := by
  cases turn with
  | stays _ phase runToken watching cancelled heralds => exact ⟨phase.trans stopped, heralds⟩
  | cancels token => exact ⟨stopped, rfl⟩
  | starts token fresh phase runToken watching cancelled heralds =>
      rw [stopped] at fresh
      cases fresh
  | closes _ running phase runToken cancelled heralds =>
      rw [stopped] at running
      cases running
  | stops _ due halts => exact ⟨halts.phase, halts.heralds⟩

/-- Something is announced exactly when the engine has been running. -/
theorem heralds_ne_nil_iff {config : Config} {subscribers : List Subscriber} {moves : List Move}
    (admitted : (create config subscribers).admits moves = true) :
    ((create config subscribers).after moves).heralds ≠ [] ↔
      (create config subscribers).HasRun moves := by
  constructor
  · intro told
    have silent : ¬(create config subscribers).heralds ≠ [] := fun told => told rfl
    obtain ⟨before, m, rest, rfl, absent, present⟩ :=
      origin_of_after (P := fun e => e.heralds ≠ []) silent told
    have upTo : before ++ [m] <+: before ++ m :: rest := ⟨rest, by simp⟩
    obtain ⟨first, next⟩ := (admits_append ..).mp admitted
    have turn := turn_perform ((watched_create config subscribers).after first) ((admits_cons ..).mp next).1
    rw [not_not] at absent
    generalize after : ((create config subscribers).after before).perform m = e' at turn present
    cases turn with
    | stays _ phase runToken watching cancelled heralds => exact absurd (heralds.trans absent) present
    | cancels token => exact absurd absent present
    | starts token fresh phase runToken watching cancelled heralds =>
        refine ⟨_, upTo, ?_⟩
        rw [after_append, after_cons, after, after_nil]
        exact phase
    | closes _ running phase runToken cancelled heralds =>
        exact ⟨before, List.prefix_append _ _, running⟩
    | stops _ due halts => exact absurd (halts.heralds.trans absent) present
  · rintro ⟨first, ⟨rest, rfl⟩, running⟩
    obtain ⟨admitted', rest'⟩ := (admits_append ..).mp admitted
    have proclaims : ((create config subscribers).after first).Proclaims :=
      turns_after (fun _ _ _ turn h => Proclaims.turn h turn) (watched_create config subscribers) admitted'
        (proclaims_create config subscribers)
    rw [Proclaims, running] at proclaims
    rw [after_append]
    refine turns_after (P := fun e => e.heralds ≠ []) (fun _ _ _ turn => turn.heralds_ne_nil)
      ((watched_create config subscribers).after admitted') rest' ?_
    simp [proclaims]

/-! ## 2. Who cancels a token -/

theorem runToken_after {moves : List Move} (watched : e.Watched) (started : e.phase ≠ .notStarted)
    (admitted : e.admits moves = true) :
    (e.after moves).runToken = e.runToken ∧ (e.after moves).phase ≠ .notStarted := by
  refine turns_after (P := fun later => later.runToken = e.runToken ∧ later.phase ≠ .notStarted) ?_
    watched admitted ⟨rfl, started⟩
  rintro mid m next turn ⟨token, started⟩
  obtain ⟨same, started'⟩ := turn.runToken_of_started started
  exact ⟨same.trans token, started'⟩

/-- A token stays cancelled. -/
theorem Turn.isCancelled {m : Move} (turn : Turn e m e') {t : Token}
    (cancelled : e.isCancelled t = true) : e'.isCancelled t = true := by
  have more (h : ∀ s ∈ e.cancellation.cancelled, s ∈ e'.cancellation.cancelled) :
      e'.isCancelled t = true := by
    obtain ⟨s, mem, within⟩ := List.any_eq_true.mp cancelled
    exact List.any_eq_true.mpr ⟨s, h s mem, within⟩
  cases turn with
  | stays _ phase runToken watching same heralds => exact more fun s mem => same ▸ mem
  | cancels token => exact more fun s mem => List.mem_cons_of_mem _ mem
  | starts token fresh phase runToken watching same heralds => exact more fun s mem => same ▸ mem
  | closes _ running phase runToken same heralds =>
      exact more fun s mem => same ▸ List.mem_cons_of_mem _ mem
  | stops _ due halts => exact more fun s mem => halts.cancelled ▸ mem

/-- Whatever is cancelled was cancelled by a move that says so, unless it is the run token. -/
theorem mem_cancelled_after {moves : List Move} (watched : e.Watched)
    (admitted : e.admits moves = true) {t : Token}
    (mem : t ∈ (e.after moves).cancellation.cancelled) :
    t ∈ e.cancellation.cancelled ∨ Move.cancel t ∈ moves ∨
      (e.after moves).phase ≠ .notStarted ∧ t = (e.after moves).runToken := by
  induction moves generalizing e with
  | nil => exact .inl mem
  | cons m moves ih =>
      obtain ⟨allowed, rest⟩ := (admits_cons ..).mp admitted
      have turn := turn_perform watched allowed
      have watched' := watched.turn turn
      rcases ih watched' rest mem with here | moved | own
      · generalize after : e.perform m = e₁ at turn here watched' rest
        cases turn with
        | stays _ phase runToken watching cancelled heralds => exact .inl (cancelled ▸ here)
        | cancels token =>
            rcases List.mem_cons.mp here with rfl | here
            · exact .inr (.inl List.mem_cons_self)
            · exact .inl here
        | starts token fresh phase runToken watching cancelled heralds => exact .inl (cancelled ▸ here)
        | closes _ running phase runToken cancelled heralds =>
            rw [cancelled] at here
            rcases List.mem_cons.mp here with rfl | here
            · -- the engine has cancelled its run token, which stays what it is
              obtain ⟨same, started⟩ := runToken_after watched' (phase ▸ nofun) rest
              rw [after_cons, after]
              exact .inr (.inr ⟨started, (same.trans runToken).symm⟩)
            · exact .inl here
        | stops _ due halts => exact .inl (halts.cancelled ▸ here)
      · exact .inr (.inl (List.mem_cons_of_mem _ moved))
      · exact .inr (.inr own)

theorem isCancelled_of_mem {moves : List Move} (watched : e.Watched)
    (admitted : e.admits moves = true) {s t : Token} (mem : Move.cancel s ∈ moves)
    (within : t.isWithin s = true) : (e.after moves).isCancelled t = true := by
  obtain ⟨first, rest, rfl⟩ := List.append_of_mem mem
  obtain ⟨admitted', next⟩ := (admits_append ..).mp admitted
  obtain ⟨-, rest'⟩ := (admits_cons ..).mp next
  rw [after_append, after_cons]
  refine turns_after (P := fun e => e.isCancelled t = true) (fun _ _ _ turn => turn.isCancelled)
    ((watched.after admitted').turn (.cancels s)) rest' ?_
  show (Cancellation.cancel _ s).isCancelled t = true
  rw [Cancellation.isCancelled_cancel]
  exact Bool.or_eq_true_iff.mpr (.inl within)

/-- The tokens of the runs in flight hang on the run token. -/
def Branches (e : Engine) : Prop := ∀ run ∈ e.runs, ∃ n, run.token = e.runToken.child n

theorem Branches.of_runs (h : e.Branches) (runToken : e'.runToken = e.runToken)
    (runs : ∀ run ∈ e'.runs, ∃ old ∈ e.runs, run.token = old.token) : e'.Branches := by
  intro run mem
  obtain ⟨old, was, token⟩ := runs run mem
  obtain ⟨n, hangs⟩ := h old was
  exact ⟨n, by rw [token, hangs, runToken]⟩

theorem Branches.of_sublist (h : e.Branches) (runToken : e'.runToken = e.runToken)
    (runs : e'.runs.Sublist e.runs) : e'.Branches :=
  h.of_runs runToken fun run mem => ⟨run, runs.subset mem, rfl⟩

theorem Branches.beginRun (h : e.Branches) (t : TaskId) (merged : Bool) (waiters : List WaiterId) :
    (e.beginRun t merged waiters).Branches := by
  cases known : e.tasks[t]? with
  | none =>
      rw [Engine.beginRun, known]
      exact h
  | some task =>
      rw [beginRun_eq known]
      intro run mem
      rcases List.mem_append.mp mem with mem | mem
      · exact h run mem
      · rw [List.mem_singleton.mp mem]
        exact ⟨_, rfl⟩

theorem Branches.request (h : e.Branches) (t : TaskId) (waiter : Option WaiterId) :
    (e.request t waiter).1.Branches := by
  have step := e.request_step t waiter
  generalize e.request t waiter = answer at step ⊢
  cases step with
  | refused err => exact h
  | skipped task known full => exact h
  | merged task known admits willing full overlap => exact h
  | started task known admits willing room => exact h.beginRun t false waiter.toList

theorem Branches.finish (h : e.Branches) (id : RunId) (outcome : Outcome) :
    (e.finish id outcome).Branches := by
  have concluded (run : Run) (task : TaskRecord) : (e.conclude run task outcome).Branches :=
    h.of_sublist rfl List.filter_sublist
  have step := e.finish_step id outcome
  generalize e.finish id outcome = after at step ⊢
  cases step with
  | unknown => exact h
  | last run task found known settled => exact concluded run task
  | closed run task found known owed closing => exact concluded run task
  | again run task found known owed admits => exact (concluded run task).beginRun _ _ _

/-- Before the start there are no runs, so the new run token leaves none behind. -/
theorem Branches.calm (h : e.Branches) (quiet : e.Quiet) (calm : Calm e e') : e'.Branches := by
  have aside {e' : Engine} (aside : Aside e e') : e'.Branches :=
    h.of_sublist aside.runToken (aside.runs ▸ .refl _)
  cases calm with
  | note n remark own silent => exact aside (aside_note e remark)
  | beginFlush s stopped => exact aside (aside_beginFlush e s)
  | receive => exact aside (aside_receive e)
  | work i => exact aside (aside_workLane e i)
  | start token fresh =>
      have runs : (e.entered token).runs = e.runs := (aside_startPump _).runs
      intro run mem
      rw [runs, (quiet (.inl fresh)).1] at mem
      cases mem
  | setProgress id progress =>
      refine h.of_runs rfl fun run mem => ?_
      obtain ⟨old, was, rfl⟩ := List.mem_map.mp mem
      refine ⟨old, was, ?_⟩
      split <;> rfl
  | _ => exact h

theorem Branches.change {l : Licence} (h : e.Branches) (quiet : e.Quiet) (change : Change l e e') :
    e'.Branches := by
  cases change with
  | calm calm => exact h.calm quiet calm
  | register spec status accepted room => exact h
  | stop idle covers => exact h
  | drain closing covers => exact h
  | request t => exact h.request t none
  | requestWaiting t covers => exact Branches.request (e := e.drawSerial t) h t _
  | detach w leaves => exact h
  | finish id outcome covers => exact h.finish id outcome
  | abandon id refuses covers =>
      unfold Engine.abandon
      split
      · exact h.of_sublist rfl List.filter_sublist
      · exact h

theorem branches_after {config : Config} {subscribers : List Subscriber} {moves : List Move}
    (admitted : (create config subscribers).admits moves = true) :
    ((create config subscribers).after moves).Branches := by
  have both : ((create config subscribers).after moves).Quiet ∧
      ((create config subscribers).after moves).Branches := by
    refine keeps_after (P := fun e => e.Quiet ∧ e.Branches) ?_ admitted
      ⟨quiet_create config subscribers, fun _ mem => nomatch mem⟩
    rintro l e e' change ⟨quiet, branches⟩
    exact ⟨quiet.change change, branches.change quiet change⟩
  exact both.2

theorem start_of_notStarted (fresh : e.phase = .notStarted) (token : Token) :
    (e.start token).1.phase = .running ∧
      (e.start token).1.runToken = token.child e.cancellation.nextChild := by
  simp only [start, fresh]
  exact ⟨(aside_startPump _).phase, (aside_startPump _).runToken⟩

/-! ## 3. All histories -/

/-- **Every step of the life is announced once.**  Whatever is called, cancelled and done, and in
whatever order: if the engine was ever running, its start is announced once, else never; if it is not
running any more, the request to stop is announced once, after the start, else never; a shutdown
before the start announces neither.  Once it was started, or has stopped, a start does nothing; and
with a token on which the run token does not hang, such starts may be left out along with all
cancellations of the token, and nothing changes but what is known of it.  The token of the start that
took effect is cancelled only by callers: no run is handed a token that it hangs on. -/
theorem transitions_announced_once (config : Config) (subscribers : List Subscriber)
    (before later : List Move)
    (admitted : (create config subscribers).admits (before ++ later) = true) :
    let start := create config subscribers
    let e := start.after before
    let e' := start.after (before ++ later)
    let told := (e'.published.map (·.kind)).filter (·.isHerald)
    (¬start.HasRun (before ++ later) → told = []) ∧
    (start.HasRun (before ++ later) → e'.phase = .running → told = [.managerStarted]) ∧
    (start.HasRun (before ++ later) → e'.phase ≠ .running →
      told = [.managerStarted, .shutdownRequested]) ∧
    (e.phase = .notStarted → (∃ bound grace rest, later = .shutdown bound grace :: rest) →
      told = []) ∧
    (e.phase ≠ .notStarted → ∀ token, (e.start token).1 = e) ∧
    (e.phase ≠ .notStarted → ∀ s, e.runToken.isWithin s = false →
      (∀ m ∈ later, m.isBoundBy s = false) →
      (e.without s).admits (later.filter (!·.isOf s)) = true ∧
      (e.without s).after (later.filter (!·.isOf s)) = e'.without s) ∧
    (e.phase = .notStarted → ∀ token rest, later = .start token :: rest →
      (e'.isCancelled token = true ↔
        ∃ s, Move.cancel s ∈ before ++ later ∧ token.isWithin s = true) ∧
      ∀ run ∈ e'.runs, token.isWithin run.token = false) := by
  intro start e e' told
  have is : e' = e.after later := after_append ..
  obtain ⟨first, rest⟩ := (admits_append ..).mp admitted
  have watched : e.Watched := (watched_create config subscribers).after first
  have proclaims : e'.Proclaims :=
    turns_after (fun _ _ _ turn h => Proclaims.turn h turn) (watched_create config subscribers) admitted
      (proclaims_create ..)
  have heard : told = e'.heralds.reverse := by rw [heralds_eq, List.reverse_reverse]
  have ran := heralds_ne_nil_iff admitted
  refine ⟨?_, ?_, ?_, ?_, fun started => start_of_started started, ?_, ?_⟩
  · intro never
    have silent : e'.heralds = [] := not_not.mp (mt ran.mp never)
    rw [heard, silent]
    rfl
  · intro _ running
    rw [Proclaims, running] at proclaims
    rw [heard, proclaims]
    rfl
  · intro has left
    have some : e'.heralds ≠ [] := ran.mpr has
    have both : e'.heralds = [.shutdownRequested, .managerStarted] := by
      unfold Proclaims at proclaims
      cases phase : e'.phase with
      | notStarted =>
          rw [phase] at proclaims
          exact absurd proclaims some
      | running => exact absurd phase left
      | stopping => rwa [phase] at proclaims
      | stopped =>
          rw [phase] at proclaims
          exact proclaims.resolve_left some
    rw [heard, both]
    rfl
  · rintro fresh ⟨bound, grace, moves, rfl⟩
    obtain ⟨-, rest'⟩ := (admits_cons ..).mp rest
    have silent : e.heralds = [] := by
      have proclaims : e.Proclaims :=
        turns_after (fun _ _ _ turn h => Proclaims.turn h turn) (watched_create config subscribers)
          first (proclaims_create ..)
      rwa [Proclaims, fresh] at proclaims
    have halts : Halts e (e.perform (.shutdown bound grace)) := halts_shutdown fresh bound grace
    have ended : e'.phase = .stopped ∧ e'.heralds = e.heralds := by
      rw [is, after_cons]
      refine turns_after (P := fun later => later.phase = .stopped ∧ later.heralds = e.heralds) ?_
        (watched.turn (turn_shutdown watched bound grace)) rest' ⟨halts.phase, halts.heralds⟩
      rintro mid m next turn ⟨stopped, heralds⟩
      obtain ⟨stopped', same⟩ := turn.of_stopped stopped
      exact ⟨stopped', same.trans heralds⟩
    rw [heard, ended.2, silent]
    rfl
  · intro started s apart unbound
    rw [is]
    exact without_after watched started apart unbound rest
  · rintro fresh token moves rfl
    obtain ⟨-, rest'⟩ := (admits_cons ..).mp rest
    obtain ⟨running, hangs⟩ := start_of_notStarted fresh token
    have own : e'.runToken = token.child e.cancellation.nextChild := by
      have kept := runToken_after (watched.turn (turn_start e token)) (running ▸ nofun) rest'
      rw [is, after_cons]
      exact kept.1.trans hangs
    refine ⟨⟨fun cancelled => ?_, ?_⟩, fun run mem => ?_⟩
    · obtain ⟨s, mem, within⟩ := List.any_eq_true.mp cancelled
      rcases mem_cancelled_after (watched_create config subscribers) admitted mem with
        none | moved | ⟨-, rfl⟩
      · cases none
      · exact ⟨s, moved, within⟩
      · rw [show ((create config subscribers).after _).runToken = _ from own,
          Token.isWithin_child_eq_false] at within
        cases within
    · rintro ⟨s, moved, within⟩
      exact isCancelled_of_mem (watched_create config subscribers) admitted moved within
    · obtain ⟨n, branch⟩ := branches_after admitted run mem
      rw [Bool.eq_false_iff]
      intro within
      have above := Token.isWithin_trans within (branch ▸ Token.isWithin_child e'.runToken n)
      rw [own, Token.isWithin_child_eq_false] at above
      cases above

/-- A second start with another token, the cancellation of that token, and two shutdowns. -/
def announcedHistory : List Move :=
  [.start (.named "u"), .cancel (.named "u"), .shutdown (.token (.named "never")) .zero, .watch,
    .shutdown (.token (.named "never")) .zero]

theorem transitions_announced_once_announced :
    (create {} []).admits ([.start (.named "t")] ++ announcedHistory) = true ∧
    (((create {} []).after ([.start (.named "t")] ++ announcedHistory)).published.map
      (·.kind)).filter (·.isHerald) = [.managerStarted, .shutdownRequested] ∧
    ((create {} []).after ([.start (.named "t")] ++ announcedHistory)).isCancelled (.named "t") =
      false := by
  have admitted : (create {} []).admits ([.start (.named "t")] ++ announcedHistory) = true := by
    decide
  have ran : (create {} []).HasRun ([.start (.named "t")] ++ announcedHistory) :=
    ⟨[.start (.named "t")], List.prefix_append _ _, rfl⟩
  have left : ((create {} []).after ([.start (.named "t")] ++ announcedHistory)).phase ≠ .running := by
    decide
  obtain ⟨-, -, both, -⟩ := transitions_announced_once {} [] [.start (.named "t")] _ admitted
  obtain ⟨-, -, -, -, -, -, caller⟩ :=
    transitions_announced_once {} [] [] ([.start (.named "t")] ++ announcedHistory) admitted
  have untouched := (caller rfl (.named "t") announcedHistory rfl).1
  refine ⟨admitted, both ran left, Bool.eq_false_iff.mpr fun cancelled => ?_⟩
  obtain ⟨s, moved, within⟩ := untouched.mp cancelled
  have other : s = .named "u" := by simpa [announcedHistory] using moved
  rw [other] at within
  revert within
  decide

end Engine

end TaskEngine
