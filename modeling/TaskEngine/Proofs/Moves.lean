/-
  TaskEngine/Proofs/Moves.lean
  ============================
  **What may happen to an engine, in any order.**

  A `Move` is one thing that happens to an engine between two moments at which it can be looked at:
  a call by code of callers (a handle, a hook, the work of a run), a turn of one of its own
  processes, or time that passes.  `Engine.allows` says which moves are possible in a state; a
  history is a list of moves that are possible one after the other (`Engine.admits`).  Nothing else
  is assumed about their order, so what is proved of all histories holds under every scheduler and
  for every behaviour of the callers.

  The pump is taken apart further than its turns: it may be interrupted between any two events
  (`Engine.receive`), and a whole turn is nothing but a number of such moves
  (`turnPump_eq_receives`).
-/
import TaskEngine.Engine.Completion
import TaskEngine.Engine.Lifecycle
import TaskEngine.Engine.Registry
import TaskEngine.Engine.Ticking

namespace TaskEngine

namespace Work

/-- Whether the call for the run of that number panics, before there is anything to wait for. -/
def refuses (work : Work) (number : Nat) : Bool := (work.refusal? number).isSome

theorem refuses_eq_false_iff {work : Work} {number : Nat} :
    work.refuses number = false ↔ work.refusal? number = none :=
  Option.isSome_eq_false_iff.trans Option.isNone_iff_eq_none

/-- Whether calls may panic so. -/
def refusesCalls : Work → Bool
  | refusesCall .. => true
  | plays _ => false

theorem refuses_eq_false {work : Work} (calls : work.refusesCalls = false) (number : Nat) :
    work.refuses number = false := by
  cases work with
  | plays calls => rfl
  | refusesCall info spared calls' => cases calls

end Work

/-- Whether events of this kind are published by a run. -/
def EventKind.isAboutRun (k : EventKind) : Bool := k == .runStarted || k.isRunFinished

/-- Whether the note is one that code of callers leaves behind. -/
def Note.isOfCallers : Note → Bool
  | .called .. | .logged _ | .traced .. => true
  | .published .. | .requested .. | .armed .. | .ticked _ | .began .. | .finished ..
  | .forwarded _ => false

namespace Engine

/-! ## 1. Moves -/

inductive Move where
  | clock (now : Instant)
  | add (spec : Spec)
  | start (token : Token)
  /-- A token is cancelled, be it one of a caller or one that was handed to a run. -/
  | cancel (token : Token)
  | request (task : TaskId)
  /-- A request by a caller that waits for the run. -/
  | requestWaiting (task : TaskId)
  | detach (waiter : WaiterId)
  /-- A run in flight publishes its beginning or its end. -/
  | announce (run : RunId) (event : Event)
  /-- The work of a run has come this far. -/
  | progress (run : RunId) (progress : Progress)
  | finish (run : RunId) (outcome : Outcome)
  /-- The work of a run panics when it is called. -/
  | abandon (run : RunId)
  | schedule (task : TaskId)
  | watch
  | shutdown (bound : Bound) (grace : Duration)
  /-- A shutdown that is under way takes a turn. -/
  | awaitShutdown (s : Shutdown)
  /-- The pump receives one event, or looks whether the workers have ended. -/
  | receive
  | work (lane : Nat)
  | remark (note : Note)

/-- The pump receives one event and offers it to the lanes; after the end marker it closes them. -/
def receive (e : Engine) : Engine :=
  match e.pump with
  | .receiving =>
      match e.bus.next? e.cursor with
      | none => e
      | some (event, cursor) =>
          let passed := { e with cursor }.emit event
          if event.kind = .allStoppedWithin then passed.closeLanes.awaitWorkers else passed
  | .closing => e.awaitWorkers
  | .absent | .ended => e

def perform (e : Engine) : Move → Engine
  | .clock now => { e with now }
  | .add spec => (e.add spec).1
  | .start token => (e.start token).1
  | .cancel token => e.cancel token
  | .request t => (e.request t none).1
  | .requestWaiting t => (e.requestWaiting t).1
  | .detach waiter => e.detach waiter
  | .announce id event => e.publishAbout id.task event
  | .progress id progress => e.setProgress id progress
  | .finish id outcome => e.finish id outcome
  | .abandon id => e.abandon id
  | .schedule t => e.turnLoop t
  | .watch => e.turnWatcher
  | .shutdown bound grace => (e.shutdown bound grace).1
  | .awaitShutdown s => (e.turnShutdown s).1
  | .receive => e.receive
  | .work i => e.workLane i
  | .remark note => e.note note

/-- Whether a move is possible: time does not run backwards, only a run in flight announces itself,
only a run whose work refuses the call is abandoned, the watcher waits for the run token, a shutdown is
under way only in an engine that is stopping or has stopped, and callers do not forge the notes of
the engine. -/
def allows (e : Engine) : Move → Bool
  | .clock now => e.now.ns ≤ now.ns
  | .announce id event => (e.run? id).isSome && event.kind.isAboutRun
  | .abandon id => (e.tasks[id.task]?).any (·.spec.work.refuses id.number)
  | .watch => e.canWatch
  | .awaitShutdown _ => e.phase == .stopping || e.phase == .stopped
  | .remark note => note.isOfCallers
  | .add _ | .start _ | .cancel _ | .request _ | .requestWaiting _ | .detach _ | .progress ..
  | .finish .. | .schedule _ | .shutdown .. | .receive | .work _ => true

/-! ## 2. Histories -/

def after (e : Engine) (moves : List Move) : Engine := moves.foldl perform e

/-- Whether every move of a list is possible when its turn comes. -/
def admits : Engine → List Move → Bool
  | _, [] => true
  | e, m :: moves => e.allows m && (e.perform m).admits moves

@[simp] theorem after_nil (e : Engine) : e.after [] = e := rfl

@[simp] theorem after_cons (e : Engine) (m : Move) (moves : List Move) :
    e.after (m :: moves) = (e.perform m).after moves := rfl

theorem after_append (e : Engine) (first second : List Move) :
    e.after (first ++ second) = (e.after first).after second :=
  List.foldl_append ..

@[simp] theorem admits_nil (e : Engine) : e.admits [] = true := rfl

@[simp] theorem admits_cons (e : Engine) (m : Move) (moves : List Move) :
    e.admits (m :: moves) = true ↔ e.allows m = true ∧ (e.perform m).admits moves = true :=
  Bool.and_eq_true_iff

theorem admits_append (e : Engine) (first second : List Move) :
    e.admits (first ++ second) = true ↔
      e.admits first = true ∧ (e.after first).admits second = true := by
  induction first generalizing e with
  | nil => simp
  | cons m first ih =>
      rw [List.cons_append, admits_cons, admits_cons, ih, after_cons, and_assoc]

/-- What every possible move keeps, every history keeps. -/
theorem invariant_after {P : Engine → Prop}
    (keeps : ∀ (e : Engine) (m : Move), e.allows m = true → P e → P (e.perform m))
    {e : Engine} {moves : List Move} (admitted : e.admits moves = true) (he : P e) :
    P (e.after moves) := by
  induction moves generalizing e with
  | nil => exact he
  | cons m moves ih =>
      obtain ⟨allowed, rest⟩ := (admits_cons ..).mp admitted
      exact ih rest (keeps e m allowed he)

/-- What holds at the end and not at the beginning came about by one of the moves. -/
theorem origin_of_after {P : Engine → Prop} {e : Engine} {moves : List Move} (absent : ¬P e)
    (present : P (e.after moves)) :
    ∃ before m rest, moves = before ++ m :: rest ∧ ¬P (e.after before) ∧
      P ((e.after before).perform m) := by
  induction moves generalizing e with
  | nil => exact absurd present absent
  | cons m moves ih =>
      by_cases here : P (e.perform m)
      · exact ⟨[], m, moves, rfl, absent, here⟩
      · obtain ⟨before, n, rest, split, absent', there⟩ := ih here present
        exact ⟨m :: before, n, rest, by rw [split, List.cons_append], absent', there⟩

/-- The second state comes about from the first by a history. -/
def Leads (e e' : Engine) : Prop := ∃ moves, e.admits moves = true ∧ e.after moves = e'

theorem Leads.refl (e : Engine) : Leads e e := ⟨[], rfl, rfl⟩

theorem Leads.trans {e e' e'' : Engine} (first : Leads e e') (second : Leads e' e'') :
    Leads e e'' := by
  obtain ⟨before, admitted, rfl⟩ := first
  obtain ⟨rest, admitted', rfl⟩ := second
  exact ⟨before ++ rest, (admits_append ..).mpr ⟨admitted, admitted'⟩, after_append ..⟩

theorem leads_perform {e : Engine} {m : Move} (allowed : e.allows m = true) :
    Leads e (e.perform m) :=
  ⟨[m], (admits_cons ..).mpr ⟨allowed, rfl⟩, rfl⟩

/-! ## 3. Turns of the pump -/

/-- As long as the pump receives, passing events on is receiving them one by one. -/
theorem forward_eq_receives (fuel : Nat) {e : Engine} (receiving : e.pump = .receiving) :
    ∃ n, e.after (List.replicate n .receive) =
      if (e.forward true fuel).2 then (e.forward true fuel).1.closeLanes.awaitWorkers
      else (e.forward true fuel).1 := by
  induction fuel generalizing e with
  | zero => exact ⟨0, rfl⟩
  | succ fuel ih =>
      cases next : e.bus.next? e.cursor with
      | none => exact ⟨0, by simp [forward, next]⟩
      | some found =>
          obtain ⟨event, cursor⟩ := found
          by_cases last : event.kind = .allStoppedWithin
          · -- the end marker: one move reads it and closes the lanes
            refine ⟨1, ?_⟩
            simp [perform, forward, receive, next, receiving, last]
          · have once : e.perform .receive = { e with cursor }.emit event := by
              simp [perform, receive, next, receiving, last]
            have still : ({ e with cursor }.emit event).pump = .receiving := by
              rw [emit_eq]
              exact receiving
            obtain ⟨n, reads⟩ := ih still
            refine ⟨n + 1, ?_⟩
            rw [List.replicate_succ, after_cons, once, reads]
            simp [forward, next, last]

/-- A turn of the pump is a number of single receives. -/
theorem turnPump_eq_receives (e : Engine) :
    ∃ n, e.turnPump = e.after (List.replicate n .receive) := by
  cases pump : e.pump with
  | absent => exact ⟨0, by simp [turnPump, pump]⟩
  | ended => exact ⟨0, by simp [turnPump, pump]⟩
  | closing => exact ⟨1, by simp [turnPump, perform, receive, pump]⟩
  | receiving =>
      obtain ⟨n, reads⟩ := forward_eq_receives e.forwardBound pump
      refine ⟨n, ?_⟩
      rw [reads]
      simp [turnPump, pump]

end Engine

end TaskEngine
