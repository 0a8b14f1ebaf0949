/-
  TaskEngine/Ring.lean
  ====================
  **A bounded ring that is written without waiting and read through cursors.**

  A ring keeps the last `capacity` entries that were written.  A reader is no more than a cursor,
  the number of the entry that it reads next; a reader that fell behind the kept entries is told
  how many it missed and goes on with the oldest one that is still kept.

  The view of a reader is `Ring.unread`, what it will still get, in order: `unread_push` says what
  a further entry does to it, `unread_of_next?` how reading takes it apart, and
  `item?_isSome_iff` which numbers are kept.
-/
namespace TaskEngine

/-- The last entries written, and how many were written in all. -/
structure Ring (α : Type) where
  capacity : Nat
  /-- The number of entries written so far. -/
  sent : Nat := 0
  /-- The entries still kept, the newest first. -/
  kept : List α := []
  capacity_pos : 0 < capacity
  /-- Nothing is lost before the ring is full. -/
  kept_length : kept.length = min sent capacity

/-- What a reader finds at its cursor, with the cursor it goes on with. -/
inductive Reading (α : Type) where
  | entry (a : α) (cursor : Nat)
  | lagged (missed cursor : Nat)
  | empty
deriving Repr

namespace Ring

variable {α : Type}

/-- A ring for at least `n` entries: the capacity is the next power of two, and at least one. -/
def ofCapacity (n : Nat) : Ring α where
  capacity := Nat.pow 2 (2 * max n 1 - 1).log2
  capacity_pos := Nat.two_pow_pos _
  kept_length := by simp

/-- The capacity is the first power of two that is large enough. -/
theorem ofCapacity_capacity_bounds (n : Nat) :
    max n 1 ≤ (ofCapacity n : Ring α).capacity ∧ (ofCapacity n : Ring α).capacity < 2 * max n 1 := by
  have positive : 2 * max n 1 - 1 ≠ 0 := by omega
  have below := Nat.log2_self_le positive
  have above := (Nat.log2_lt positive).mp (Nat.lt_succ_self _)
  rw [Nat.pow_succ] at above
  simp only [ofCapacity, Nat.pow_eq]
  omega

/-- Writes an entry, over the oldest one if the ring is full. -/
def push (r : Ring α) (a : α) : Ring α :=
  { r with
    sent := r.sent + 1
    kept := (a :: r.kept).take r.capacity
    kept_length := by
      have h := r.kept_length
      simp only [List.length_take, List.length_cons]
      omega }

/-- The number of the oldest entry that a full ring still keeps. -/
def oldest (r : Ring α) : Nat := r.sent - r.capacity

/-- The kept entry of a given number. -/
def item? (r : Ring α) (number : Nat) : Option α :=
  if number < r.sent then r.kept[r.sent - 1 - number]? else none

def read (r : Ring α) (cursor : Nat) : Reading α :=
  if cursor < r.oldest then .lagged (r.oldest - cursor) r.oldest
  else match r.item? cursor with
    | some a => .entry a (cursor + 1)
    | none => .empty

/-- The next entry that a reader gets, past any that it missed, and the cursor after it. -/
def next? (r : Ring α) (cursor : Nat) : Option (α × Nat) :=
  (r.item? (max cursor r.oldest)).map fun a => (a, max cursor r.oldest + 1)

/-- How many entries a reader at `cursor` will still get. -/
def backlog (r : Ring α) (cursor : Nat) : Nat := r.sent - max cursor r.oldest

/-- The entries that a reader at `cursor` will still get, in order. -/
def unread (r : Ring α) (cursor : Nat) : List α := (r.kept.take (r.backlog cursor)).reverse

/-! ### What is kept -/

@[simp] theorem push_sent (r : Ring α) (a : α) : (r.push a).sent = r.sent + 1 := rfl

@[simp] theorem push_capacity (r : Ring α) (a : α) : (r.push a).capacity = r.capacity := rfl

@[simp] theorem push_kept (r : Ring α) (a : α) :
    (r.push a).kept = (a :: r.kept).take r.capacity := rfl

theorem oldest_le_oldest_push (r : Ring α) (a : α) : r.oldest ≤ (r.push a).oldest := by
  simp only [oldest, push_sent, push_capacity]
  omega

theorem oldest_push_le (r : Ring α) (a : α) : (r.push a).oldest ≤ r.sent := by
  have h := r.capacity_pos
  simp only [oldest, push_sent, push_capacity]
  omega

theorem item?_isSome_iff (r : Ring α) (number : Nat) :
    (r.item? number).isSome = true ↔ r.oldest ≤ number ∧ number < r.sent := by
  have h := r.kept_length
  unfold item? oldest
  split
  · rw [Option.isSome_iff_ne_none, ne_eq, List.getElem?_eq_none_iff]
    omega
  · simp only [Option.isSome_none, Bool.false_eq_true, false_iff]
    omega

/-- The entry just written has the number that was next. -/
theorem item?_push_self (r : Ring α) (a : α) : (r.push a).item? r.sent = some a := by
  obtain ⟨n, hn⟩ := Nat.exists_eq_succ_of_ne_zero (Nat.pos_iff_ne_zero.mp r.capacity_pos)
  simp [item?, push, hn]

/-- An entry keeps its number for as long as it is kept. -/
theorem item?_push_of_lt (r : Ring α) (a : α) {number : Nat} (h : number < r.sent)
    (kept : (r.push a).oldest ≤ number) : (r.push a).item? number = r.item? number := by
  have index : r.sent + 1 - 1 - number = (r.sent - 1 - number) + 1 := by omega
  have small : r.sent - 1 - number + 1 < r.capacity := by
    simp only [oldest, push_sent, push_capacity] at kept
    omega
  simp only [item?, push, h, if_pos, Nat.lt_succ_of_lt h, index, List.getElem?_take_of_lt small,
    List.getElem?_cons_succ]

/-! ### What a reader gets -/

theorem length_unread (r : Ring α) (cursor : Nat) :
    (r.unread cursor).length = r.backlog cursor := by
  have h := r.kept_length
  simp only [unread, backlog, oldest, List.length_reverse, List.length_take]
  omega

/-- A further entry comes last; what it is written over is lost to readers that are behind. -/
theorem unread_push (r : Ring α) (a : α) {cursor : Nat} (h : cursor ≤ r.sent) :
    (r.push a).unread cursor = r.unread (max cursor (r.push a).oldest) ++ [a] := by
  have first := r.oldest_le_oldest_push a
  have last := r.oldest_push_le a
  have count : (r.push a).backlog cursor = r.backlog (max cursor (r.push a).oldest) + 1 := by
    simp only [backlog, push_sent]
    omega
  have positive := r.capacity_pos
  have room : r.backlog (max cursor (r.push a).oldest) + 1 ≤ r.capacity := by
    simp only [backlog, oldest, push_sent, push_capacity]
    omega
  simp only [unread, count, push_kept, List.take_take, Nat.min_eq_left room, List.take_succ_cons,
    List.reverse_cons]

/-- Nothing is read exactly if nothing is left. -/
theorem next?_eq_none_iff (r : Ring α) (cursor : Nat) :
    r.next? cursor = none ↔ r.backlog cursor = 0 := by
  have h := r.item?_isSome_iff (max cursor r.oldest)
  have first : r.oldest ≤ max cursor r.oldest := Nat.le_max_right ..
  simp only [next?, Option.map_eq_none_iff, backlog]
  cases found : r.item? (max cursor r.oldest) with
  | none =>
      simp only [found, Option.isSome_none, Bool.false_eq_true, false_iff] at h
      simp only [true_iff]
      omega
  | some a =>
      simp only [found, Option.isSome_some, true_iff] at h
      simp only [reduceCtorEq, false_iff]
      omega

/-- Reading takes the first of the entries that are left. -/
theorem unread_of_next? {r : Ring α} {cursor after : Nat} {a : α}
    (h : r.next? cursor = some (a, after)) : r.unread cursor = a :: r.unread after := by
  obtain ⟨b, found, hb⟩ := Option.map_eq_some_iff.mp h
  obtain ⟨rfl, rfl⟩ := Prod.mk.inj hb
  have bounds := (r.item?_isSome_iff (max cursor r.oldest)).mp (by simp [found])
  have length := r.kept_length
  have now : r.backlog cursor = r.backlog (max cursor r.oldest + 1) + 1 := by
    simp only [backlog]
    omega
  have index : r.sent - 1 - max cursor r.oldest = r.backlog (max cursor r.oldest + 1) := by
    simp only [backlog]
    omega
  have here : r.kept[r.backlog (max cursor r.oldest + 1)]? = some b := by
    rw [← index]
    simpa only [item?, bounds.2, if_pos] using found
  simp only [unread, now, List.take_add_one, here, Option.toList_some, List.reverse_append,
    List.reverse_singleton, List.singleton_append]

/-- Readers only get what is kept. -/
theorem mem_kept_of_mem_unread {r : Ring α} {cursor : Nat} {a : α} (h : a ∈ r.unread cursor) :
    a ∈ r.kept :=
  List.mem_of_mem_take (List.mem_reverse.mp h)

theorem mem_kept_push {r : Ring α} {a b : α} (h : b ∈ (r.push a).kept) : b = a ∨ b ∈ r.kept :=
  List.mem_cons.mp (List.mem_of_mem_take h)

theorem mem_unread_of_next? {r : Ring α} {cursor after : Nat} {a : α}
    (h : r.next? cursor = some (a, after)) : a ∈ r.unread cursor := by
  rw [unread_of_next? h]
  exact List.mem_cons_self

theorem le_sent_of_next? {r : Ring α} {cursor after : Nat} {a : α}
    (h : r.next? cursor = some (a, after)) : after ≤ r.sent := by
  obtain ⟨b, found, hb⟩ := Option.map_eq_some_iff.mp h
  obtain ⟨rfl, rfl⟩ := Prod.mk.inj hb
  exact ((r.item?_isSome_iff _).mp (by simp [found])).2

/-- A reader that missed nothing goes on with the next number. -/
theorem cursor_of_next? {r : Ring α} {cursor after : Nat} {a : α}
    (h : r.next? cursor = some (a, after)) : after = max cursor r.oldest + 1 := by
  obtain ⟨b, found, hb⟩ := Option.map_eq_some_iff.mp h
  exact (Prod.mk.inj hb).2.symm

/-- A reader that has read everything missed nothing since. -/
theorem oldest_le_of_next?_eq_none {r : Ring α} {cursor : Nat} (h : r.next? cursor = none) :
    r.oldest ≤ cursor := by
  have positive := r.capacity_pos
  have nothing := (r.next?_eq_none_iff cursor).mp h
  simp only [backlog, oldest] at nothing ⊢
  omega

theorem unread_eq_nil_of_next? {r : Ring α} {cursor : Nat} (h : r.next? cursor = none) :
    r.unread cursor = [] := by
  rw [← List.length_eq_zero_iff, length_unread]
  exact (r.next?_eq_none_iff cursor).mp h

/-- A reader that is further on gets less. -/
theorem unread_suffix (r : Ring α) {cursor later : Nat} (h : cursor ≤ later) :
    r.unread later <:+ r.unread cursor := by
  have less : r.backlog later ≤ r.backlog cursor := by
    simp only [backlog]
    omega
  have taken : r.kept.take (r.backlog later) <+: r.kept.take (r.backlog cursor) :=
    List.take_prefix_take_left less
  exact List.reverse_suffix.mpr taken

theorem length_unread_le (r : Ring α) (cursor : Nat) : (r.unread cursor).length ≤ r.capacity := by
  rw [length_unread]
  simp only [backlog, oldest]
  omega

/-- As long as there is room for it, a further entry costs a reader nothing. -/
theorem unread_push_of_room {r : Ring α} {a : α} {cursor : Nat} (bound : cursor ≤ r.sent)
    (room : (r.unread cursor).length < r.capacity) :
    (r.push a).unread cursor = r.unread cursor ++ [a] := by
  rw [length_unread] at room
  have same : r.backlog (max cursor (r.push a).oldest) = r.backlog cursor := by
    simp only [backlog, oldest, push_sent, push_capacity] at room ⊢
    omega
  rw [unread_push r a bound]
  simp only [unread, same]

end Ring

end TaskEngine
