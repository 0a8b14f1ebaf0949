/-
  TaskEngine/Proofs/Departures.lean
  =================================
  **A caller that leaves changes nothing but itself.**

  Leaving is asked for by the number of the caller, and takes that number out of the list of parked
  callers of one task; a caller whose number travels with a run, or was told already, is in no such
  list.  So a history and the same history with departures left out, or put in anywhere, come to
  engines that differ in the slots of those callers only (`departures_change_nothing_else`).

  Seen from the engine, a wait that reaches its limit, is called off or is given up is no more than
  such a departure (`World.departs_turnCall`, `World.departs_callWait`).
-/
import TaskEngine.Proofs.Views
import TaskEngine.World.Calling

namespace TaskEngine

/-- The view of an engine in which certain callers are not seen. -/
def View.hiding (gone : WaiterId → Bool) : View where
  spec := id
  sees w := !gone w
  reads _ := true
  hooksOnly _ := rfl
  settled _ := rfl

namespace Engine

variable {gone : WaiterId → Bool}

/-- Whether the move is the departure of one of these callers. -/
def Move.departs (gone : WaiterId → Bool) : Move → Bool
  | .detach waiter => gone waiter
  | _ => false

theorem same_detach (e : Engine) {waiter : WaiterId} (left : gone waiter = true) :
    (View.hiding gone).Same (e.detach waiter) e := by
  have hidden (task : TaskRecord) :
      (View.hiding gone).task (task.detach waiter) = (View.hiding gone).task task := by
    have parked : (task.parked.filter (· != waiter)).filter (!gone ·) =
        task.parked.filter (!gone ·) := by
      rw [List.filter_filter]
      apply List.filter_congr
      intro w _
      by_cases here : w = waiter
      · simp [here, left]
      · simp [here]
    simp [View.hiding, View.task, TaskRecord.detach, parked]
  apply View.same_of
  · exact (View.map_task_modify _ id hidden e.tasks waiter.task).trans (List.modify_id ..)
  · rfl
  · rfl
  · rfl
  · rfl

/-- One departure more or less is not seen. -/
theorem same_perform_of_departs (e : Engine) {m : Move} (departs : m.departs gone = true) :
    (View.hiding gone).Same (e.perform m) e := by
  cases m with
  | detach waiter => exact e.same_detach departs
  | _ => cases departs

theorem allows_of_departs (e : Engine) {m : Move} (departs : m.departs gone = true) :
    e.allows m = true := by
  cases m with
  | detach waiter => rfl
  | _ => cases departs

/-- A history looks like the same history without the departures of these callers. -/
theorem same_after_filter {e e' : Engine} (h : (View.hiding gone).Same e e') (moves : List Move) :
    (View.hiding gone).Same (e.after moves) (e'.after (moves.filter (!·.departs gone))) ∧
      e.admits moves = e'.admits (moves.filter (!·.departs gone)) := by
  induction moves generalizing e e' with
  | nil => exact ⟨h, rfl⟩
  | cons m moves ih =>
    show _ ∧ (e.allows m && (e.perform m).admits moves) = _
    cases departs : m.departs gone with
    | true =>
      obtain ⟨same, admits⟩ := ih ((e.same_perform_of_departs departs).trans h)
      rw [List.filter_cons_of_neg (by simp [departs]), e.allows_of_departs departs, Bool.true_and]
      exact ⟨same, admits⟩
    | false =>
      obtain ⟨same, admits⟩ := ih (h.perform m)
      rw [List.filter_cons_of_pos (by simp [departs])]
      refine ⟨same, ?_⟩
      show _ = (e'.allows m && (e'.perform m).admits _)
      rw [h.allows, admits]

/-- Two engines differ in the slots of these callers only: the same was published, the same runs
began and ended, requests were answered the same way, tasks differ in their parked callers and runs
in the callers that travel with them, and every other caller was told the same. -/
structure DifferIn (gone : WaiterId → Bool) (e e' : Engine) : Prop where
  journal : e.journal = e'.journal
  tasks : (e.tasks.map fun t => { t with parked := t.parked.filter (!gone ·) }) =
    e'.tasks.map fun t => { t with parked := t.parked.filter (!gone ·) }
  runs : (e.runs.map fun r => { r with waiters := r.waiters.filter (!gone ·) }) =
    e'.runs.map fun r => { r with waiters := r.waiters.filter (!gone ·) }
  told : ∀ waiter, gone waiter = false → e.delivery? waiter = e'.delivery? waiter
  rest : { e with tasks := [], runs := [], mail := [], journal := [] } =
    { e' with tasks := [], runs := [], mail := [], journal := [] }

theorem delivery?_hiding (e : Engine) {waiter : WaiterId} (stays : gone waiter = false) :
    ((View.hiding gone).engine e).delivery? waiter = e.delivery? waiter := by
  show (e.mail.filter fun p => !gone p.1).lookup waiter = e.mail.lookup waiter
  induction e.mail with
  | nil => rfl
  | cons told mail ih =>
    obtain ⟨other, delivery⟩ := told
    by_cases here : waiter = other
    · subst here
      rw [List.filter_cons_of_pos (by simp [stays]), List.lookup_cons_self, List.lookup_cons_self]
    · have apart : (waiter == other) = false := by simp [here]
      cases left : gone other with
      | true =>
        rw [List.filter_cons_of_neg (by simp [left]), ih, List.lookup_cons, apart]
      | false =>
        rw [List.filter_cons_of_pos (by simp [left]), List.lookup_cons, List.lookup_cons, apart, ih]

theorem differIn_of_same {e e' : Engine} (h : (View.hiding gone).Same e e') :
    DifferIn gone e e' := by
  have all (e : Engine) : ((View.hiding gone).engine e).journal = e.journal :=
    List.filter_eq_self.mpr fun _ _ => rfl
  constructor
  · rw [← all e, h.eq, all]
  · show ((View.hiding gone).engine e).tasks = ((View.hiding gone).engine e').tasks
    rw [h.eq]
  · show ((View.hiding gone).engine e).runs = ((View.hiding gone).engine e').runs
    rw [h.eq]
  · intro waiter stays
    rw [← e.delivery?_hiding stays, h.eq, e'.delivery?_hiding stays]
  · have frame (e : Engine) : { e with tasks := [], runs := [], mail := [], journal := [] } =
        { (View.hiding gone).engine e with tasks := [], runs := [], mail := [], journal := [] } := rfl
    rw [frame e, h.eq, ← frame e']

end Engine

namespace World

open Engine

/-- To leave when a call has come to an answer is to depart, or to do nothing. -/
theorem departs_leaveIfAnswered (e : Engine) (waiter : WaiterId) (stage : CallStage) :
    leaveIfAnswered e waiter stage = e ∨
      leaveIfAnswered e waiter stage = e.perform (.detach waiter) := by
  unfold leaveIfAnswered
  split
  · split
    · exact .inl rfl
    · exact .inr rfl
  · exact .inl rfl
  · exact .inl rfl

/-- A turn of a call that waits for a run, be its limit reached or the call given up. -/
theorem departs_turnCall (w : World) {c : Call} {waiter : WaiterId} {limit : WaitLimit} {id : Nat}
    (found : w.call? id = some c) (stage : c.stage = .waiting waiter limit) :
    (w.turnCall id).engine = w.engine ∨
      (w.turnCall id).engine = w.engine.perform (.detach waiter) := by
  unfold turnCall
  simp only [found, dropCall, stage]
  split
  · exact .inr rfl
  · exact departs_leaveIfAnswered ..

/-- A call that asks for a run and waits for it may find its limit reached there and then. -/
theorem departs_callWait (w : World) (t : TaskId) (limit : WaitLimit) :
    (w.callWait t limit).1.engine = w.engine.perform (.requestWaiting t) ∨
      (w.callWait t limit).1.engine =
        (w.engine.perform (.requestWaiting t)).perform (.detach (w.engine.nextWaiter t)) := by
  have waiter : (w.engine.requestWaiting t).2.1 = w.engine.nextWaiter t := rfl
  unfold callWait
  rw [perform, ← waiter]
  generalize w.engine.requestWaiting t = answer
  obtain ⟨engine, waiter, result⟩ := answer
  cases result with
  | error err => exact .inl rfl
  | ok admission => exact departs_leaveIfAnswered engine waiter _

end World

namespace Engine

/-- **A caller that leaves changes nothing but itself.**  Two histories of the same engine that
differ in departures of the callers `gone` only, in any number and at any moments, are possible both
or neither, and come to engines that differ in the slots of these callers only.  And the calls that
wait for a run depart: a turn of one does nothing else to the engine, and neither does its making,
after the request. -/
theorem departures_change_nothing_else (e : Engine) (gone : WaiterId → Bool)
    {moves others : List Move}
    (same : moves.filter (!·.departs gone) = others.filter (!·.departs gone)) :
    e.admits moves = e.admits others ∧ DifferIn gone (e.after moves) (e.after others) ∧
      (∀ (w : World) (id : Nat) (c : Call) (waiter : WaiterId) (limit : WaitLimit),
        w.call? id = some c → c.stage = .waiting waiter limit →
          (w.turnCall id).engine = w.engine ∨
            (w.turnCall id).engine = w.engine.perform (.detach waiter)) ∧
      ∀ (w : World) (t : TaskId) (limit : WaitLimit),
        (w.callWait t limit).1.engine = w.engine.perform (.requestWaiting t) ∨
          (w.callWait t limit).1.engine =
            (w.engine.perform (.requestWaiting t)).perform (.detach (w.engine.nextWaiter t)) := by
  have alike : (View.hiding gone).Same e e := .refl e
  obtain ⟨first, admits⟩ := same_after_filter alike moves
  obtain ⟨second, admits'⟩ := same_after_filter alike others
  rw [same] at first admits
  refine ⟨admits.trans admits'.symm, differIn_of_same (first.trans second.symm), ?_, ?_⟩
  · intro w id c waiter limit found stage
    exact w.departs_turnCall found stage
  · exact World.departs_callWait

/-- A task that folds requests. -/
def folding : Spec := (Spec.onDemand .trivial).withOverlap .merge

/-- The first caller has its run and leaves when it was told; of the two that are folded into the
owed run, one leaves while it is parked and the other stays. -/
def deserted : List Move :=
  [.add folding, .start (.named "t"), .requestWaiting 0, .requestWaiting 0, .requestWaiting 0,
    .detach ⟨0, 1⟩, .finish ⟨0, 1⟩ .succeeded, .detach ⟨0, 0⟩, .finish ⟨0, 2⟩ .succeeded]

/-- The same without the departures. -/
def undeserted : List Move :=
  [.add folding, .start (.named "t"), .requestWaiting 0, .requestWaiting 0, .requestWaiting 0,
    .finish ⟨0, 1⟩ .succeeded, .finish ⟨0, 2⟩ .succeeded]

theorem departures_change_nothing_else_deserted :
    let gone : WaiterId → Bool := fun waiter => waiter.serial < 2
    (create {} []).admits deserted = true ∧
      (deserted.filter (!·.departs gone)).length = 7 ∧
      DifferIn gone ((create {} []).after deserted) ((create {} []).after undeserted) ∧
      (((create {} []).after deserted).delivery? ⟨0, 2⟩).isSome = true := by
  intro gone
  have same : deserted.filter (!·.departs gone) = undeserted.filter (!·.departs gone) := rfl
  obtain ⟨-, differ, -⟩ := departures_change_nothing_else (create {} []) gone same
  have told : (((create {} []).after undeserted).delivery? ⟨0, 2⟩).isSome = true := by decide
  refine ⟨by decide, by decide, differ, ?_⟩
  rw [differ.told ⟨0, 2⟩ (by decide)]
  exact told

end Engine

end TaskEngine
