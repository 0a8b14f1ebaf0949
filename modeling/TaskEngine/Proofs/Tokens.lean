/-
  TaskEngine/Proofs/Tokens.lean
  =============================
  **Tokens that an engine does not hold have no influence on it.**

  An engine looks at its run token and at the bounds of its shutdowns.  Whether any other token is
  cancelled makes no difference: forgetting it (`Engine.without`) commutes with every engine function
  and so with every history (`without_after`), from which starts and cancellations with such a token
  may be left out.  Each function has its equation, named after it.
-/
import TaskEngine.Proofs.Lifecycle

namespace TaskEngine

namespace Cancellation

/-- Forgets whether `s` and the tokens that hang on it were cancelled. -/
def without (c : Cancellation) (s : Token) : Cancellation :=
  { c with cancelled := c.cancelled.filter fun t => !t.isWithin s }

variable {s t : Token}

theorem isCancelled_without (c : Cancellation) (apart : t.isWithin s = false) :
    (c.without s).isCancelled t = c.isCancelled t := by
  rw [Bool.eq_iff_iff]
  simp only [isCancelled, without, List.any_eq_true, List.mem_filter]
  constructor
  · rintro ⟨u, ⟨mem, -⟩, within⟩
    exact ⟨u, mem, within⟩
  · rintro ⟨u, mem, within⟩
    refine ⟨u, ⟨mem, ?_⟩, within⟩
    -- what hangs on `s` by way of `u` would hang on `s` itself
    cases above : u.isWithin s with
    | false => rfl
    | true =>
        rw [Token.isWithin_trans within above] at apart
        cases apart

theorem without_cancel (c : Cancellation) (apart : t.isWithin s = false) :
    (c.cancel t).without s = (c.without s).cancel t := by
  simp [cancel, without, apart]

theorem without_cancel_of_isWithin (c : Cancellation) (within : t.isWithin s = true) :
    (c.cancel t).without s = c.without s := by
  simp [cancel, without, within]

end Cancellation

namespace Engine

variable {e : Engine} {s : Token}

/-! ## 1. Forgetting cancellations -/

def without (e : Engine) (s : Token) : Engine :=
  { e with cancellation := e.cancellation.without s }

/-- The run token neither is `s` nor hangs on it. -/
def Apart (e : Engine) (s : Token) : Prop := e.runToken.isWithin s = false

theorem isCancelled_without (apart : e.Apart s) :
    (e.without s).isCancelled (e.without s).runToken = e.isCancelled e.runToken :=
  Cancellation.isCancelled_without _ apart

theorem refusal?_without (apart : e.Apart s) : (e.without s).refusal? = e.refusal? := by
  unfold refusal?
  rw [isCancelled_without apart]
  rfl

theorem isOpen_without (apart : e.Apart s) : (e.without s).isOpen = e.isOpen := by
  rw [isOpen, isOpen, refusal?_without apart]

/-- Whether the bound is `s` or a token that hangs on it. -/
def Bound.isOf (s : Token) : Bound → Bool
  | .token t => t.isWithin s
  | .deadline _ => false

theorem boundReached_without {bound : Bound} (other : bound.isOf s = false) :
    (e.without s).boundReached bound = e.boundReached bound := by
  cases bound with
  | deadline due => rfl
  | token t => exact Cancellation.isCancelled_without _ other

/-! ## 2. Requests and runs -/

theorem beginRun_without (e : Engine) (s : Token) (t : TaskId) (merged : Bool)
    (waiters : List WaiterId) :
    (e.without s).beginRun t merged waiters = (e.beginRun t merged waiters).without s := by
  cases known : e.tasks[t]? with
  | none => simp [beginRun, without, known]
  | some task =>
      have known' : (e.without s).tasks[t]? = some task := known
      rw [beginRun_eq known, beginRun_eq known']
      rfl

theorem place_without (e : Engine) (s : Token) (t : TaskId) (task : TaskRecord)
    (waiter : Option WaiterId) :
    (e.without s).place t task waiter =
      ((e.place t task waiter).1.without s, (e.place t task waiter).2) := by
  unfold place
  split
  · split <;> rfl
  · rw [beginRun_without]

theorem consider_without (apart : e.Apart s) (t : TaskId) (waiter : Option WaiterId) :
    (e.without s).consider t waiter =
      ((e.consider t waiter).1.without s, (e.consider t waiter).2) := by
  have tasks : (e.without s).tasks = e.tasks := rfl
  unfold consider
  rw [refusal?_without apart, tasks]
  cases e.refusal? with
  | some err => rfl
  | none =>
      cases e.tasks[t]? with
      | none => rfl
      | some task =>
          dsimp only
          cases task.refusal? with
          | some err => rfl
          | none => exact place_without e s t task waiter

theorem request_without (apart : e.Apart s) (t : TaskId) (waiter : Option WaiterId) :
    (e.without s).request t waiter = ((e.request t waiter).1.without s, (e.request t waiter).2) := by
  unfold request
  rw [consider_without apart]
  rfl

theorem conclude_without (apart : e.Apart s) (run : Run) (task : TaskRecord) (outcome : Outcome) :
    (e.without s).conclude run task outcome = (e.conclude run task outcome).without s := by
  unfold conclude
  rw [isOpen_without apart]
  rfl

theorem finish_without (apart : e.Apart s) (id : RunId) (outcome : Outcome) :
    (e.without s).finish id outcome = (e.finish id outcome).without s := by
  have run : (e.without s).run? id = e.run? id := rfl
  have tasks : (e.without s).tasks = e.tasks := rfl
  unfold finish
  rw [run, tasks]
  cases e.run? id with
  | none => rfl
  | some run =>
      cases e.tasks[id.task]? with
      | none => rfl
      | some task =>
          dsimp only
          rw [conclude_without apart, isOpen_without apart, settleOwed, settleOwed, beginRun_without]
          split
          · split <;> rfl
          · rfl

theorem abandon_without (e : Engine) (s : Token) (id : RunId) :
    (e.without s).abandon id = (e.abandon id).without s := by
  have run : (e.without s).run? id = e.run? id := rfl
  unfold abandon
  rw [run]
  split <;> rfl

theorem add_without (apart : e.Apart s) (spec : Spec) :
    (e.without s).add spec = ((e.add spec).1.without s, (e.add spec).2) := by
  have status : (e.without s).initialStatus? = e.initialStatus? := by
    unfold initialStatus?
    rw [isOpen_without apart]
    rfl
  have found (name : String) : (e.without s).lookup? name = e.lookup? name := rfl
  have config : (e.without s).config = e.config := rfl
  unfold add
  rw [config, status]
  split
  · rfl
  · split
    · rfl
    · rw [found]
      split <;> rfl

/-! ## 3. Schedules -/

theorem armLoop_without (e : Engine) (s : Token) (t : TaskId) (task : TaskRecord) (base : Instant)
    (due? : Option Instant) :
    (e.without s).armLoop t task base due? = (e.armLoop t task base due?).without s := by
  cases due? <;> rfl

theorem tick_without (apart : e.Apart s) (t : TaskId) (task : TaskRecord) (every : Every)
    (base : Instant) : (e.without s).tick t task every base = (e.tick t task every base).without s := by
  have asked : ((e.without s).note (.ticked t)).request t none =
      (((e.note (.ticked t)).request t none).1.without s, ((e.note (.ticked t)).request t none).2) :=
    request_without (e := e.note (.ticked t)) apart t none
  have now : (e.without s).now = e.now := rfl
  unfold tick
  rw [asked, now]
  split
  · exact armLoop_without ..
  · generalize (e.note (.ticked t)).request t none = answer
    obtain ⟨e', result⟩ := answer
    cases result with
    | ok => rfl
    | error err =>
        cases err with
        | skipped => rfl
        | _ => exact armLoop_without ..

theorem passTick_without (apart : e.Apart s) (t : TaskId) (every : Every) :
    (e.without s).passTick t every = (e.passTick t every).without s := by
  have tasks : (e.without s).tasks = e.tasks := rfl
  have now : (e.without s).now = e.now := rfl
  unfold passTick
  rw [tasks]
  cases e.tasks[t]? with
  | none => rfl
  | some task =>
      dsimp only
      split
      · rw [isCancelled_without apart, now]
        split
        · rfl
        · split
          · exact tick_without apart ..
          · rfl
      · rfl

theorem turnLoop_without (apart : e.Apart s) (t : TaskId) :
    (e.without s).turnLoop t = (e.turnLoop t).without s := by
  have tasks : (e.without s).tasks = e.tasks := rfl
  have now : (e.without s).now = e.now := rfl
  have armed (task : TaskRecord) (every : Every) (base : Instant) (due? : Option Instant) :
      ((e.without s).armLoop t task base due?).passTick t every =
        ((e.armLoop t task base due?).passTick t every).without s := by
    have apart' : (e.armLoop t task base due?).Apart s := by
      rw [Apart, (steady_armLoop e t task base due?).runToken]
      exact apart
    rw [armLoop_without]
    exact passTick_without apart' t every
  unfold turnLoop
  rw [tasks]
  cases e.tasks[t]? with
  | none => rfl
  | some task =>
      dsimp only
      split
      · rw [now]
        exact armed ..
      · exact passTick_without apart ..
      · rw [isCancelled_without apart]
        split
        · rfl
        · split
          · rfl
          · exact armed ..
      · rfl

/-! ## 4. Feeding the lanes -/

theorem emit_without (e : Engine) (s : Token) (event : Event) :
    (e.without s).emit event = (e.emit event).without s := by
  rw [emit_eq, emit_eq]
  rfl

theorem forward_without (s : Token) (untilEnd : Bool) (fuel : Nat) (e : Engine) :
    (e.without s).forward untilEnd fuel =
      ((e.forward untilEnd fuel).1.without s, (e.forward untilEnd fuel).2) := by
  induction fuel generalizing e with
  | zero => rfl
  | succ fuel ih =>
      have bus : (e.without s).bus.next? (e.without s).cursor = e.bus.next? e.cursor := rfl
      unfold forward
      rw [bus]
      cases e.bus.next? e.cursor with
      | none => rfl
      | some found =>
          obtain ⟨event, cursor⟩ := found
          have passed : { e.without s with cursor }.emit event =
              ({ e with cursor }.emit event).without s := emit_without { e with cursor } s event
          dsimp only
          rw [passed]
          split
          · rfl
          · exact ih _

theorem awaitWorkers_without (e : Engine) (s : Token) :
    (e.without s).awaitWorkers = e.awaitWorkers.without s := by
  unfold awaitWorkers
  split <;> simp_all [without]

theorem receive_without (e : Engine) (s : Token) : (e.without s).receive = e.receive.without s := by
  have pump : (e.without s).pump = e.pump := rfl
  have bus : (e.without s).bus.next? (e.without s).cursor = e.bus.next? e.cursor := rfl
  unfold receive
  rw [pump, bus]
  split
  · split
    · rfl
    · rename_i event cursor next
      have passed : { e.without s with cursor }.emit event =
          ({ e with cursor }.emit event).without s := emit_without { e with cursor } s event
      dsimp only at passed ⊢
      rw [pump] at passed
      rw [passed]
      split
      · exact awaitWorkers_without ({ e with cursor }.emit event).closeLanes s
      · rfl
  · exact awaitWorkers_without e s
  · rfl
  · rfl

theorem workLane_without (e : Engine) (s : Token) (i : Nat) :
    (e.without s).workLane i = (e.workLane i).without s := by
  rw [workLane_eq, workLane_eq]
  rfl

/-! ## 5. Stopping -/

theorem beginStopping_without (apart : e.Apart s) :
    (e.without s).beginStopping = e.beginStopping.without s := by
  have cancels := Cancellation.without_cancel e.cancellation apart
  unfold beginStopping without cancel updateTasks
  dsimp only
  rw [cancels]

theorem turnWatcher_without (apart : e.Apart s) :
    (e.without s).turnWatcher = e.turnWatcher.without s := by
  have closing : { e.without s with watching := false }.beginStopping =
      { e with watching := false }.beginStopping.without s :=
    beginStopping_without (e := { e with watching := false }) apart
  have phase : (e.without s).phase = e.phase := rfl
  unfold turnWatcher
  dsimp only at closing ⊢
  rw [closing, phase]
  split <;> rfl

theorem turnFlush_without {d : Shutdown} (other : d.bound.isOf s = false) :
    (e.without s).turnFlush d = e.turnFlush d := by
  unfold turnFlush
  rw [boundReached_without other]
  rfl

theorem beginFlush_without {d : Shutdown} (other : d.bound.isOf s = false) :
    (e.without s).beginFlush d = ((e.beginFlush d).1.without s, (e.beginFlush d).2) := by
  have dispatch : (e.without s).dispatch = e.dispatch := rfl
  have taken : { e.without s with dispatch := .idle } = { e with dispatch := .idle }.without s := rfl
  have passed : ({ e with dispatch := .idle }.without s).forwardAll.closeLanes =
      { e with dispatch := .idle }.forwardAll.closeLanes.without s := by
    have bound : ({ e with dispatch := .idle }.without s).forwardBound =
        { e with dispatch := .idle }.forwardBound := rfl
    rw [forwardAll, forward_without, bound]
    rfl
  unfold beginFlush
  rw [dispatch, taken]
  split
  · rfl
  · exact Prod.ext rfl (turnFlush_without (d := { d with stage := .awaitingPump }) other)
  · dsimp only
    rw [passed, turnFlush_without (d := { d with stage := .awaitingWorkers }) other]

theorem turnShutdown_without {d : Shutdown} (other : d.bound.isOf s = false) :
    (e.without s).turnShutdown d = ((e.turnShutdown d).1.without s, (e.turnShutdown d).2) := by
  have idle : (e.without s).isIdle = e.isIdle := rfl
  unfold turnShutdown
  split
  · rw [idle, boundReached_without other]
    split
    · exact beginFlush_without (e := { e with phase := .stopped }.finalize.publish _) other
    · split <;> rfl
  · rw [turnFlush_without other]
  · rw [turnFlush_without other]

theorem shutdown_without (apart : e.Apart s) {bound : Bound} (other : bound.isOf s = false) (grace : Duration) :
    (e.without s).shutdown bound grace =
      ((e.shutdown bound grace).1.without s, (e.shutdown bound grace).2) := by
  have phase : (e.without s).phase = e.phase := rfl
  unfold shutdown
  rw [phase, beginStopping_without apart]
  split
  · rfl
  · exact beginFlush_without (e := { e with phase := .stopped }.finalize) (d := { bound, grace }) other
  · exact turnShutdown_without (e := e.beginStopping.publish _) (d := { bound, grace }) other
  · exact turnShutdown_without (d := { bound, grace }) other

/-! ## 6. All moves -/

/-- Whether the move hands over `s`, or a token that hangs on it, with a start, or cancels it. -/
def Move.isOf (s : Token) : Move → Bool
  | .start t | .cancel t => t.isWithin s
  | _ => false

/-- Whether the move is a turn of a shutdown that such a token bounds. -/
def Move.isBoundBy (s : Token) : Move → Bool
  | .shutdown bound _ => bound.isOf s
  | .awaitShutdown d => d.bound.isOf s
  | _ => false

/-- A start of an engine that was started, or has stopped without that, does nothing at all. -/
theorem start_of_started (started : e.phase ≠ .notStarted) (token : Token) :
    (e.start token).1 = e := by
  unfold start
  split
  · rfl
  · rfl
  · rfl
  · exact absurd ‹_› started

theorem allows_without (apart : e.Apart s) (m : Move) : (e.without s).allows m = e.allows m := by
  cases m with
  | watch =>
      simp only [allows, canWatch, isCancelled_without apart]
      rfl
  | _ => rfl

theorem perform_without {m : Move} (apart : e.Apart s) (started : e.phase ≠ .notStarted)
    (other : m.isOf s = false) (unbound : m.isBoundBy s = false) :
    (e.without s).perform m = (e.perform m).without s := by
  cases m with
  | clock now => rfl
  | add spec => exact congrArg Prod.fst (add_without apart spec)
  | start token =>
      have started' : (e.without s).phase ≠ .notStarted := started
      rw [perform, perform, start_of_started started, start_of_started started']
  | cancel token =>
      have cancels := Cancellation.without_cancel e.cancellation other
      simp only [perform, cancel, without, cancels]
  | request t => exact congrArg Prod.fst (request_without apart t none)
  | requestWaiting t =>
      exact congrArg Prod.fst (request_without (e := e.drawSerial t) apart t (some (e.nextWaiter t)))
  | detach waiter => rfl
  | announce id event => rfl
  | progress id progress => rfl
  | finish id outcome => exact finish_without apart id outcome
  | abandon id => exact abandon_without e s id
  | schedule t => exact turnLoop_without apart t
  | watch => exact turnWatcher_without apart
  | shutdown bound grace => exact congrArg Prod.fst (shutdown_without apart unbound grace)
  | awaitShutdown d => exact congrArg Prod.fst (turnShutdown_without unbound)
  | receive => exact receive_without e s
  | work i => exact workLane_without e s i
  | remark note => rfl

theorem without_perform_of_isOf {m : Move} (started : e.phase ≠ .notStarted)
    (own : m.isOf s = true) : (e.perform m).without s = e.without s := by
  cases m with
  | start token => rw [perform, start_of_started started]
  | cancel token =>
      have forgets := Cancellation.without_cancel_of_isWithin e.cancellation own
      simp only [perform, cancel, without, forgets]
  | _ => cases own

/-- Only a start makes the run token a new one. -/
theorem Turn.runToken_of_started {e' : Engine} {m : Move} (turn : Turn e m e')
    (started : e.phase ≠ .notStarted) : e'.runToken = e.runToken ∧ e'.phase ≠ .notStarted := by
  cases turn with
  | stays _ phase runToken watching cancelled heralds => exact ⟨runToken, phase ▸ started⟩
  | cancels token => exact ⟨rfl, started⟩
  | starts token fresh phase runToken watching cancelled heralds => exact absurd fresh started
  | closes _ running phase runToken cancelled heralds => exact ⟨runToken, phase ▸ nofun⟩
  | stops _ due halts => exact ⟨halts.runToken, halts.phase ▸ nofun⟩

/-- **A token that the engine does not hold might as well not be there**: leaving out of a history
all starts with it and all its cancellations changes nothing but what is known of it. -/
theorem without_after {moves : List Move} (watched : e.Watched) (started : e.phase ≠ .notStarted)
    (apart : e.Apart s) (unbound : ∀ m ∈ moves, m.isBoundBy s = false)
    (admitted : e.admits moves = true) :
    (e.without s).admits (moves.filter (!·.isOf s)) = true ∧
    (e.without s).after (moves.filter (!·.isOf s)) = (e.after moves).without s := by
  induction moves generalizing e with
  | nil => exact ⟨rfl, rfl⟩
  | cons m moves ih =>
      obtain ⟨allowed, rest⟩ := (admits_cons ..).mp admitted
      have turn := turn_perform watched allowed
      obtain ⟨token, started'⟩ := turn.runToken_of_started started
      have apart' : (e.perform m).Apart s := by
        rw [Apart, token]
        exact apart
      obtain ⟨admitted', same⟩ := ih (watched.turn turn) started' apart'
        (fun n mem => unbound n (List.mem_cons_of_mem _ mem)) rest
      cases own : m.isOf s with
      | true =>
          rw [List.filter_cons_of_neg (by simp [own]), ← without_perform_of_isOf started own]
          exact ⟨admitted', same⟩
      | false =>
          rw [List.filter_cons_of_pos (by simp [own]), admits_cons, after_cons,
            allows_without apart, perform_without apart started own (unbound m List.mem_cons_self)]
          exact ⟨⟨allowed, admitted'⟩, same⟩

end Engine

end TaskEngine
