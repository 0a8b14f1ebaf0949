/-
  TaskEngine/Proofs/Flushing.lean
  ===============================
  **Passing on what is buffered.**

  The loop looks at the ring again and again: it is told how many events it missed, or gets the next
  one and passes it on, or finds nothing and ends (`Flushing`).  While it is at work the lanes report
  what they refuse, on the ring that it reads, so what is still to be read may grow, and a full ring
  writes a report over an event that has not been read (`Overwrites`).

  The loop ends for all that, since a report of a refusal is never reported itself.  And whatever is
  not written over is passed on, in order: first what waited at the beginning, then the reports.  The
  proof goes along the loop from its end: a round in front of a loop adds the event that it passes on,
  and those that the reports of this event are written over.
-/
import TaskEngine.Proofs.Passages

namespace TaskEngine

/-! ## 1. Looking at a ring -/

/-- The entry that was found, if any, with its number. -/
def Reading.taken? {α : Type} : Reading α → Option (α × Nat)
  | .entry a cursor => some (a, cursor - 1)
  | .lagged .. | .empty => none

namespace Ring

variable {α : Type} {r : Ring α} {a : α} {cursor after missed : Nat}

theorem read_of_lt (behind : cursor < r.oldest) :
    r.read cursor = .lagged (r.oldest - cursor) r.oldest :=
  if_pos behind

theorem read_of_next? (kept : r.oldest ≤ cursor) (next : r.next? cursor = some (a, after)) :
    r.read cursor = .entry a after := by
  obtain ⟨b, found, same⟩ := Option.map_eq_some_iff.mp next
  rw [Nat.max_eq_left kept] at found same
  obtain ⟨rfl, rfl⟩ := Prod.mk.inj same
  rw [read, if_neg (Nat.not_lt.mpr kept), found]

theorem next?_of_read (told : r.read cursor = .entry a after) :
    r.oldest ≤ cursor ∧ after = cursor + 1 ∧ r.next? cursor = some (a, after) := by
  unfold read at told
  split at told
  · cases told
  · rename_i kept
    have kept : r.oldest ≤ cursor := Nat.not_lt.mp kept
    cases found : r.item? cursor with
    | none =>
        rw [found] at told
        cases told
    | some b =>
        rw [found] at told
        cases told
        refine ⟨kept, rfl, ?_⟩
        rw [next?, Nat.max_eq_left kept, found]
        rfl

theorem lt_of_read (told : r.read cursor = .lagged missed after) :
    cursor < r.oldest ∧ after = r.oldest := by
  unfold read at told
  split at told
  · cases told
    exact ⟨‹_›, rfl⟩
  · split at told <;> cases told

/-- Nothing is found exactly if nothing is left: a reader that missed something finds the rest. -/
theorem read_eq_empty_iff (r : Ring α) (cursor : Nat) :
    r.read cursor = .empty ↔ r.unread cursor = [] := by
  rw [← List.length_eq_zero_iff, length_unread, ← next?_eq_none_iff]
  constructor
  · intro told
    cases next : r.next? cursor with
    | none => rfl
    | some found =>
        exfalso
        by_cases kept : r.oldest ≤ cursor
        · cases told.symm.trans (read_of_next? kept next)
        · cases told.symm.trans (read_of_lt (Nat.not_le.mp kept))
  · intro next
    have kept := oldest_le_of_next?_eq_none next
    rw [next?, Nat.max_eq_left kept] at next
    rw [read, if_neg (Nat.not_lt.mpr kept), Option.map_eq_none_iff.mp next]

theorem unread_of_lt (behind : cursor < r.oldest) : r.unread r.oldest = r.unread cursor := by
  rw [unread, unread, backlog, backlog, Nat.max_self, Nat.max_eq_right (Nat.le_of_lt behind)]

theorem next?_of_lt (behind : cursor < r.oldest) : r.next? r.oldest = r.next? cursor := by
  rw [next?, next?, Nat.max_self, Nat.max_eq_right (Nat.le_of_lt behind)]

theorem unread_foldl_suffix (entries : List α) (trails : cursor ≤ r.sent) :
    (entries.foldl push r).unread cursor <:+ r.unread cursor ++ entries := by
  induction entries generalizing r with
  | nil =>
      rw [List.append_nil]
      exact List.suffix_refl _
  | cons entry entries ih =>
      obtain ⟨older, rest⟩ := r.unread_suffix (Nat.le_max_left cursor (r.push entry).oldest)
      have first : (r.push entry).unread cursor <:+ r.unread cursor ++ [entry] := by
        rw [unread_push r entry trails, ← rest, List.append_assoc]
        exact List.suffix_append older _
      have others := ih (r := r.push entry) (Nat.le_succ_of_le trails)
      rw [List.foldl_cons, List.append_cons]
      exact others.trans (List.suffix_append_self_iff.mpr first)

end Ring

namespace Engine

variable {e e' : Engine} {looks : List (Reading Event)} {number : Nat}

/-- The number of the event that is to be read next. -/
def unreadFrom (e : Engine) : Nat := max e.cursor e.bus.oldest

/-- Further entries come last, and are written over the first of those that were left. -/
theorem unread_foldl {r : Ring Event} {cursor : Nat} (events : List Event) (trails : cursor ≤ r.sent) :
    (events.foldl Ring.push r).unread cursor = (r.unread cursor ++ events).drop
      (max cursor (events.foldl Ring.push r).oldest - max cursor r.oldest) := by
  have length : (r.unread cursor ++ events).length - ((events.foldl Ring.push r).unread cursor).length =
      max cursor (events.foldl Ring.push r).oldest - max cursor r.oldest := by
    have older := oldest_le_foldl events r
    rw [List.length_append, Ring.length_unread, Ring.length_unread, Ring.backlog, Ring.backlog]
    simp only [Ring.oldest, sent_foldl, capacity_foldl] at older ⊢
    omega
  have suffix := List.suffix_iff_eq_drop.mp (Ring.unread_foldl_suffix events trails)
  rw [length] at suffix
  exact suffix

/-! ## 2. The loop -/

/-- Rounds of the loop, and what it was told in each: it goes on past what it missed, and passes on
what it gets.  It ends when it finds nothing. -/
inductive Flushing : Engine → List (Reading Event) → Engine → Prop where
  | refl (e : Engine) : Flushing e [] e
  | lags {e e' : Engine} {missed cursor : Nat} {looks : List (Reading Event)}
      (told : e.bus.read e.cursor = .lagged missed cursor)
      (rest : Flushing { e with cursor } looks e') : Flushing e (.lagged missed cursor :: looks) e'
  | passes {e e' : Engine} {event : Event} {cursor : Nat} {looks : List (Reading Event)}
      (told : e.bus.read e.cursor = .entry event cursor)
      (rest : Flushing ({ e with cursor }.emit event) looks e') :
      Flushing e (.entry event cursor :: looks) e'

/-- The events that were passed on, with their numbers. -/
def passedOn (looks : List (Reading Event)) : List (Event × Nat) := looks.filterMap (·.taken?)

/-- There is a moment in the loop at which the event of this number has not been read, and is not
kept any more. -/
def Overwrites (e : Engine) (number : Nat) : Prop :=
  ∃ looks e', Flushing e looks e' ∧ e'.cursor ≤ number ∧ number < e'.bus.oldest

theorem Flushing.isPrefix (h : Flushing e looks e') {looks' : List (Reading Event)} {last : Engine}
    (whole : Flushing e looks' last) (finished : last.bus.read last.cursor = .empty) :
    looks <+: looks' := by
  induction h generalizing looks' with
  | refl e => exact List.nil_prefix
  | lags told rest ih =>
      cases whole with
      | refl => cases told.symm.trans finished
      | lags told' rest' =>
          cases told.symm.trans told'
          exact List.cons_prefix_cons.mpr ⟨rfl, ih rest'⟩
      | passes told' rest' => cases told.symm.trans told'
  | passes told rest ih =>
      cases whole with
      | refl => cases told.symm.trans finished
      | lags told' rest' => cases told.symm.trans told'
      | passes told' rest' =>
          cases told.symm.trans told'
          exact List.cons_prefix_cons.mpr ⟨rfl, ih rest'⟩

theorem cursor_emit (e : Engine) (event : Event) : (e.emit event).cursor = e.cursor := by
  rw [emit_eq]

theorem bus_emit (e : Engine) (event : Event) :
    (e.emit event).bus = (emitTo e.lanes event).2.foldl Ring.push e.bus := by
  rw [emit_eq]

/-- The loop never goes back. -/
theorem Flushing.cursor_le (h : Flushing e looks e') : e.cursor ≤ e'.cursor := by
  induction h with
  | refl e => exact Nat.le_refl _
  | lags told rest ih =>
      obtain ⟨behind, rfl⟩ := Ring.lt_of_read told
      exact Nat.le_trans (Nat.le_of_lt behind) ih
  | passes told rest ih =>
      obtain ⟨-, rfl, -⟩ := Ring.next?_of_read told
      rw [cursor_emit] at ih
      exact Nat.le_trans (Nat.le_succ _) ih

theorem Flushing.forwarded_eq (h : Flushing e looks e') :
    e'.forwarded.reverse = e.forwarded.reverse ++ (passedOn looks).map (·.1) := by
  induction h with
  | refl e => exact (List.append_nil _).symm
  | lags told rest ih => exact ih
  | @passes e e' event cursor looks told rest ih =>
      rw [ih, forwarded_emit, List.reverse_cons, List.append_assoc]
      rfl

/-- Every event that is passed on counts for more than the reports that come of it. -/
theorem Flushing.length_passedOn_le (h : Flushing e looks e') :
    (passedOn looks).length ≤ e.passagesLeft := by
  induction h with
  | refl e => exact Nat.zero_le _
  | @lags e e' missed cursor looks told rest ih =>
      obtain ⟨behind, rfl⟩ := Ring.lt_of_read told
      rw [passagesLeft, Ring.unread_of_lt behind] at ih
      exact ih
  | passes told rest ih =>
      obtain ⟨-, -, next⟩ := Ring.next?_of_read told
      exact Nat.lt_of_le_of_lt ih (passagesLeft_emit_lt next)

/-- With enough fuel the loop comes to its end. -/
theorem flushing_forward {fuel : Nat} (enough : e.passagesLeft ≤ fuel) :
    ∃ looks, Flushing e looks (e.forward false fuel).1 := by
  induction fuel generalizing e with
  | zero => exact ⟨[], .refl e⟩
  | succ fuel ih =>
      cases next : e.bus.next? e.cursor with
      | none =>
          simp only [forward, next]
          exact ⟨[], .refl e⟩
      | some found =>
          obtain ⟨event, cursor⟩ := found
          have less := passagesLeft_emit_lt next
          obtain ⟨looks, rest⟩ := ih (e := { e with cursor }.emit event) (by omega)
          simp only [forward, next, Bool.false_and, Bool.false_eq_true, if_false]
          by_cases kept : e.bus.oldest ≤ e.cursor
          · exact ⟨_, .passes (Ring.read_of_next? kept next) rest⟩
          · -- what was missed costs a round of its own
            have behind : e.cursor < e.bus.oldest := Nat.not_le.mp kept
            have told : e.bus.read e.bus.oldest = .entry event cursor :=
              Ring.read_of_next? (Nat.le_refl _) ((Ring.next?_of_lt behind).trans next)
            exact ⟨_, .lags (Ring.read_of_lt behind)
              (.passes (e := { e with cursor := e.bus.oldest }) told rest)⟩

/-! ## 3. What is written over -/

theorem overwrites_of_lags {missed cursor : Nat}
    (told : e.bus.read e.cursor = .lagged missed cursor) (kept : e.bus.oldest ≤ number) :
    e.Overwrites number ↔ { e with cursor }.Overwrites number := by
  constructor
  · rintro ⟨looks, e', h, unread, lost⟩
    cases h with
    | refl => exact absurd lost (Nat.not_lt.mpr kept)
    | lags told' rest =>
        cases told.symm.trans told'
        exact ⟨_, e', rest, unread, lost⟩
    | passes told' rest => cases told.symm.trans told'
  · rintro ⟨looks, e', rest, unread, lost⟩
    exact ⟨_, e', .lags told rest, unread, lost⟩

theorem overwrites_of_passes {event : Event} {cursor : Nat}
    (told : e.bus.read e.cursor = .entry event cursor) (kept : e.bus.oldest ≤ number) :
    e.Overwrites number ↔ ({ e with cursor }.emit event).Overwrites number := by
  constructor
  · rintro ⟨looks, e', h, unread, lost⟩
    cases h with
    | refl => exact absurd lost (Nat.not_lt.mpr kept)
    | lags told' rest => cases told.symm.trans told'
    | passes told' rest =>
        cases told.symm.trans told'
        exact ⟨_, e', rest, unread, lost⟩
  · rintro ⟨looks, e', rest, unread, lost⟩
    exact ⟨_, e', .passes told rest, unread, lost⟩

/-- What has been read can not be written over any more. -/
theorem not_overwrites_of_lt (read : number < e.cursor) : ¬e.Overwrites number := by
  rintro ⟨looks, e', h, unread, -⟩
  have further := h.cursor_le
  omega

/-! ## 4. What is passed on -/

/-- What waits, and then the reports, with their numbers. -/
def waitingLine (e : Engine) (reports : List Event) : List (Event × Nat) :=
  (e.bus.unread e.cursor ++ reports).zipIdx e.unreadFrom

/-- The loop passes on its line, in order, as far as it is not written over; and all that it publishes
are the reports of refusals. -/
structure PassesOn (e : Engine) (passed : List (Event × Nat)) (reports : List Event)
    (e' : Engine) : Prop where
  bus : e'.bus = reports.foldl Ring.push e.bus
  overflows : ∀ report ∈ reports, report.kind = .subscriberOverflow
  order : passed.Sublist (e.waitingLine reports)
  exact' : ∀ entry ∈ e.waitingLine reports, entry ∈ passed ↔ ¬e.Overwrites entry.2

theorem le_of_mem_waitingLine {reports : List Event} {entry : Event × Nat}
    (mem : entry ∈ e.waitingLine reports) : e.unreadFrom ≤ entry.2 :=
  List.le_snd_of_mem_zipIdx mem

theorem passesOn_nothing (nothing : e.bus.unread e.cursor = []) : PassesOn e [] [] e := by
  have nothing : e.waitingLine [] = [] := by
    rw [waitingLine, nothing]
    rfl
  constructor
  · rfl
  · exact fun _ mem => absurd mem List.not_mem_nil
  · rw [nothing]
  · rw [nothing]
    exact fun _ mem => absurd mem List.not_mem_nil

theorem PassesOn.lags {missed cursor : Nat} {passed : List (Event × Nat)} {reports : List Event}
    (told : e.bus.read e.cursor = .lagged missed cursor)
    (rest : PassesOn { e with cursor } passed reports e') : PassesOn e passed reports e' := by
  obtain ⟨behind, rfl⟩ := Ring.lt_of_read told
  have from' : { e with cursor := e.bus.oldest }.unreadFrom = e.unreadFrom := by
    show max e.bus.oldest e.bus.oldest = max e.cursor e.bus.oldest
    omega
  have line : { e with cursor := e.bus.oldest }.waitingLine reports = e.waitingLine reports := by
    rw [waitingLine, from', Ring.unread_of_lt behind]
    rfl
  refine ⟨rest.bus, rest.overflows, line ▸ rest.order, ?_⟩
  intro entry mem
  have kept : e.bus.oldest ≤ entry.2 :=
    Nat.le_trans (Nat.le_max_right _ _) (le_of_mem_waitingLine mem)
  rw [overwrites_of_lags told kept]
  exact rest.exact' entry (line.symm ▸ mem)

/-- An event is passed on; of the rest of the line, with the refusals of this event at its end, the
first are written over. -/
theorem waitingLine_of_passes {event : Event} {cursor : Nat} (reports : List Event)
    (told : e.bus.read e.cursor = .entry event cursor) :
    ∃ lost, e.waitingLine ((emitTo e.lanes event).2 ++ reports) =
        (event, e.cursor) :: (lost ++ ({ e with cursor }.emit event).waitingLine reports) ∧
      ∀ entry ∈ lost, cursor ≤ entry.2 ∧ entry.2 < ({ e with cursor }.emit event).unreadFrom := by
  obtain ⟨kept, rfl, next⟩ := Ring.next?_of_read told
  have trails := Ring.le_sent_of_next? next
  let refusals := (emitTo e.lanes event).2
  let rest := e.bus.unread (e.cursor + 1) ++ refusals
  let further := refusals.foldl Ring.push e.bus
  let gone := max (e.cursor + 1) further.oldest - (e.cursor + 1)
  have later : max (e.cursor + 1) e.bus.oldest = e.cursor + 1 := by omega
  have unread : further.unread (e.cursor + 1) = rest.drop gone := by
    rw [unread_foldl refusals trails, later]
  have few : gone ≤ rest.length := by
    have sent : further.sent = e.bus.sent + refusals.length := sent_foldl refusals e.bus
    have length : rest.length = e.bus.sent - (e.cursor + 1) + refusals.length := by
      rw [List.length_append, Ring.length_unread, Ring.backlog, later]
    simp only [gone, Ring.oldest] at later ⊢
    omega
  have starts : ({ e with cursor := e.cursor + 1 }.emit event).unreadFrom = e.cursor + 1 + gone := by
    rw [unreadFrom, cursor_emit, bus_emit]
    show max (e.cursor + 1) further.oldest = _
    omega
  have line : ({ e with cursor := e.cursor + 1 }.emit event).waitingLine reports =
      (rest.drop gone ++ reports).zipIdx (e.cursor + 1 + gone) := by
    rw [waitingLine, starts, cursor_emit, bus_emit, ← unread]
  have parts : e.bus.unread (e.cursor + 1) ++ (refusals ++ reports) =
      rest.take gone ++ (rest.drop gone ++ reports) := by
    rw [← List.append_assoc, ← List.append_assoc, List.take_append_drop]
  refine ⟨(rest.take gone).zipIdx (e.cursor + 1), ?_, ?_⟩
  · rw [line, waitingLine, unreadFrom, Nat.max_eq_left kept, Ring.unread_of_next? next,
      List.cons_append, List.zipIdx_cons, parts, List.zipIdx_append, List.length_take,
      Nat.min_eq_left few]
  · rintro ⟨other, number⟩ mem
    have first := List.le_snd_of_mem_zipIdx mem
    have last := List.snd_lt_add_of_mem_zipIdx mem
    rw [List.length_take, Nat.min_eq_left few] at last
    rw [starts]
    exact ⟨first, last⟩

theorem PassesOn.passes {event : Event} {cursor : Nat} {passed : List (Event × Nat)}
    {reports : List Event} (told : e.bus.read e.cursor = .entry event cursor)
    (rest : PassesOn ({ e with cursor }.emit event) passed reports e') :
    PassesOn e ((event, e.cursor) :: passed) ((emitTo e.lanes event).2 ++ reports) e' := by
  let next := { e with cursor }.emit event
  obtain ⟨lost, line, between⟩ := waitingLine_of_passes reports told
  obtain ⟨kept, after, -⟩ := Ring.next?_of_read told
  have reached : next.cursor = cursor := cursor_emit _ event
  have ahead : cursor ≤ next.unreadFrom := by
    rw [← reached]
    exact Nat.le_max_left _ _
  constructor
  · rw [rest.bus, bus_emit, List.foldl_append]
  · intro report mem
    exact (List.mem_append.mp mem).elim kind_of_mem_emitTo (rest.overflows report)
  · rw [line]
    exact (rest.order.trans (List.sublist_append_right lost _)).cons_cons _
  · rw [line]
    intro entry mem
    rcases List.mem_cons.mp mem with rfl | mem
    · -- the event itself has been read from now on
      have safe : ¬e.Overwrites e.cursor := by
        rw [overwrites_of_passes told kept]
        have read : e.cursor < next.cursor := by omega
        exact not_overwrites_of_lt read
      exact iff_of_true List.mem_cons_self safe
    have later : cursor ≤ entry.2 := by
      rcases List.mem_append.mp mem with mem | mem
      · exact (between entry mem).1
      · exact Nat.le_trans ahead (le_of_mem_waitingLine mem)
    have other : entry ≠ (event, e.cursor) := by
      rintro rfl
      omega
    rw [List.mem_cons, or_iff_right other, overwrites_of_passes told (by omega)]
    rcases List.mem_append.mp mem with mem | mem
    · -- it was lost before anything else could be read
      have behind := (between entry mem).2
      have lost : next.Overwrites entry.2 := by
        have full : entry.2 < max next.cursor next.bus.oldest := behind
        exact ⟨[], next, .refl next, by omega, by omega⟩
      refine iff_of_false ?_ (not_not_intro lost)
      intro passed
      have first := le_of_mem_waitingLine (rest.order.subset passed)
      omega
    · exact rest.exact' entry mem

/-- Rounds up to the end of the loop pass on all that is not written over. -/
theorem Flushing.passesOn (h : Flushing e looks e') (nothing : e'.bus.unread e'.cursor = []) :
    ∃ reports, PassesOn e (passedOn looks) reports e' := by
  induction h with
  | refl e => exact ⟨[], passesOn_nothing nothing⟩
  | lags told rest ih =>
      obtain ⟨reports, passes⟩ := ih nothing
      exact ⟨reports, passes.lags told⟩
  | @passes e e' event cursor looks told rest ih =>
      obtain ⟨reports, passes⟩ := ih nothing
      obtain ⟨-, after, -⟩ := Ring.next?_of_read told
      have own : passedOn (.entry event cursor :: looks) = (event, e.cursor) :: passedOn looks := by
        rw [after]
        rfl
      rw [own]
      exact ⟨_, passes.passes told⟩

/-- **Passing on what is buffered comes to an end, with nothing left, and nothing is lost on the way
but what the reports of refusals are written over.** -/
theorem buffered_events_passed_on (e : Engine) :
    ∃ looks reports,
      -- the loop ends, and there is nothing left to be read
      Flushing e looks e.forwardAll ∧
      e.forwardAll.bus.read e.forwardAll.cursor = .empty ∧
      (∀ looks' e', Flushing e looks' e' → looks' <+: looks) ∧
      (passedOn looks).length ≤ (e.bus.unread e.cursor).length * (e.lanes.length + 1) ∧
      -- what it publishes
      e.forwardAll.bus = reports.foldl Ring.push e.bus ∧
      (∀ report ∈ reports, report.kind = .subscriberOverflow) ∧
      -- what it passes on
      e.forwardAll.forwarded.reverse = e.forwarded.reverse ++ (passedOn looks).map (·.1) ∧
      (passedOn looks).Sublist
        ((e.bus.unread e.cursor ++ reports).zipIdx (max e.cursor e.bus.oldest)) ∧
      ∀ entry ∈ (e.bus.unread e.cursor ++ reports).zipIdx (max e.cursor e.bus.oldest),
        entry ∈ passedOn looks ↔ ¬e.Overwrites entry.2 := by
  have nothing : e.forwardAll.bus.unread e.forwardAll.cursor = [] := unread_forwardAll e
  have finished := (Ring.read_eq_empty_iff _ _).mpr nothing
  obtain ⟨looks, whole⟩ := flushing_forward e.passagesLeft_le_forwardBound
  obtain ⟨reports, passes⟩ := whole.passesOn nothing
  have bound : (passedOn looks).length ≤ (e.bus.unread e.cursor).length * (e.lanes.length + 1) := by
    rw [Ring.length_unread]
    exact Nat.le_trans whole.length_passedOn_le e.passagesLeft_le_forwardBound
  exact ⟨looks, reports, whole, finished, fun _ _ rounds => rounds.isPrefix whole finished, bound, passes.bus,
    passes.overflows, whole.forwarded_eq, passes.order, passes.exact'⟩

end Engine

end TaskEngine
