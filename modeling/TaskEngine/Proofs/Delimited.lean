/-
  TaskEngine/Proofs/Delimited.lean
  ================================
  **Printed texts that show where they end.**

  Messages are put together from quoted names, lists of them, durations and fixed words, without
  any count of characters in front.  A reader can take them apart again if each part shows by itself
  where it ends (`Text.Delimited`): quoted texts and lists of them do, since what stands between the
  quotes hides every quote (`delimited_quote`, `delimited_quoteList`), and durations do, since the
  numeral ends where the unit begins (`Duration.delimited_text`).
-/
import TaskEngine.Error
import Mathlib.Data.List.Basic

namespace TaskEngine

namespace Text

/-! ## 1. Where a text ends -/

/-- What is printed shows where it ends: read from the front, with anything behind it, it can have
come from one value only. -/
def Delimited {α : Type} (print : α → List Char) : Prop :=
  ∀ ⦃a b : α⦄ ⦃rest rest' : List Char⦄, print a ++ rest = print b ++ rest' → a = b ∧ rest = rest'

section Delimited

variable {α : Type} {print : α → List Char}

theorem Delimited.injective (h : Delimited print) : Function.Injective print :=
  fun _ _ same => (h (congrArg (· ++ []) same)).1

/-- Words in front, always the same, do no harm. -/
theorem Delimited.preceded (h : Delimited print) (words : List Char) :
    Delimited fun a => words ++ print a := by
  intro a b rest rest' same
  rw [List.append_assoc, List.append_assoc] at same
  exact h (List.append_cancel_left same)

/-- A sequence shows where it ends if its items do and none begins like the sign that closes it. -/
theorem Delimited.closed (h : Delimited print) {close : Char}
    (opens : ∀ a rest rest', print a ++ rest ≠ close :: rest') :
    Delimited fun items : List α => items.flatMap print ++ [close] := by
  intro items items' rest rest' same
  simp only [List.append_assoc, List.singleton_append] at same
  induction items generalizing items' with
  | nil =>
      cases items' with
      | nil => exact ⟨rfl, List.tail_eq_of_cons_eq same⟩
      | cons item items' =>
          rw [List.flatMap_cons, List.append_assoc] at same
          exact (opens _ _ _ same.symm).elim
  | cons item items ih =>
      rw [List.flatMap_cons, List.append_assoc] at same
      cases items' with
      | nil => exact (opens _ _ _ same).elim
      | cons item' items' =>
          rw [List.flatMap_cons, List.append_assoc] at same
          obtain ⟨first, others⟩ := h same
          obtain ⟨all, behind⟩ := ih others
          exact ⟨by rw [first, all], behind⟩

end Delimited

/-- A stretch of characters of one kind ends at the first character that is not of the kind. -/
theorem stretch_unique {kind : Char → Bool} {a b rest rest' : List Char} {x y : Char}
    (ha : ∀ c ∈ a, kind c = true) (hb : ∀ c ∈ b, kind c = true) (hx : kind x = false)
    (hy : kind y = false) (same : a ++ x :: rest = b ++ y :: rest') :
    a = b ∧ x = y ∧ rest = rest' := by
  have stretch {s r : List Char} {z : Char} (hs : ∀ c ∈ s, kind c = true) (hz : kind z = false) :
      (s ++ z :: r).takeWhile kind = s := by
    rw [List.takeWhile_append_of_pos hs, List.takeWhile_cons_of_neg (by simp [hz]), List.append_nil]
  have front : a = b := by rw [← stretch ha hx, same, stretch hb hy]
  obtain ⟨head, tail⟩ := List.cons.inj (List.append_cancel_left (front ▸ same))
  exact ⟨front, head, tail⟩

/-! ## 2. Numerals -/

theorem digitChar_inj {m n : Nat} (hm : m < 16) (hn : n < 16)
    (same : Nat.digitChar m = Nat.digitChar n) : m = n := by
  have all : ∀ m < 16, ∀ n < 16, Nat.digitChar m = Nat.digitChar n → m = n := by decide
  exact all m hm n hn same

/-- Two numbers with the same numeral are the same, in every base that has digits. -/
theorem toDigits_inj {base : Nat} (positive : 1 < base) (small : base ≤ 16) {m n : Nat}
    (same : Nat.toDigits base m = Nat.toDigits base n) : m = n := by
  have digit {k : Nat} : k % base < 16 := Nat.lt_of_lt_of_le (Nat.mod_lt k (by omega)) small
  induction m using Nat.strongRecOn generalizing n with
  | ind m ih =>
      rw [Nat.toDigits_eq_if positive (n := m), Nat.toDigits_eq_if positive (n := n)] at same
      split at same <;> split at same
      · exact digitChar_inj (by omega) (by omega) (List.singleton_inj.mp same)
      · have none := List.append_inj_left' ((List.nil_append _).trans same) rfl
        exact absurd none.symm Nat.toDigits_ne_nil
      · have none := List.append_inj_left' (same.trans (List.nil_append _).symm) rfl
        exact absurd none Nat.toDigits_ne_nil
      · rename_i large _
        obtain ⟨front, last⟩ := List.append_inj' same rfl
        have quotients := ih (m / base) (Nat.div_lt_self (by omega) positive) front
        have remainders := digitChar_inj digit digit (List.singleton_inj.mp last)
        rw [← Nat.div_add_mod m base, ← Nat.div_add_mod n base, quotients, remainders]

/-! ## 3. Quoted texts -/

/-- What a letter stands for behind a backslash. -/
def unescape : Char → Char
  | '0' => '\x00'
  | 't' => '\t'
  | 'r' => '\r'
  | 'n' => '\n'
  | c => c

/-- The three forms in which a character is written between the quotes. -/
theorem escapeChar_cases (c : Char) :
    (∃ letter, letter ≠ 'u' ∧ unescape letter = c ∧ escapeChar c = ['\\', letter]) ∨
    escapeChar c = '\\' :: 'u' :: '\x7b' :: (hexDigits c.toNat ++ ['\x7d']) ∨
    (c ≠ '\\' ∧ c ≠ '"' ∧ escapeChar c = [c]) := by
  rw [escapeChar]
  split
  · exact .inl ⟨'0', by decide, by simp [unescape, *], rfl⟩
  split
  · exact .inl ⟨'t', by decide, by simp [unescape, *], rfl⟩
  split
  · exact .inl ⟨'r', by decide, by simp [unescape, *], rfl⟩
  split
  · exact .inl ⟨'n', by decide, by simp [unescape, *], rfl⟩
  split
  · rename_i special
    rw [Bool.or_eq_true, decide_eq_true_eq, decide_eq_true_eq] at special
    rcases special with rfl | rfl
    · exact .inl ⟨'"', by decide, rfl, rfl⟩
    · exact .inl ⟨'\\', by decide, rfl, rfl⟩
  · rename_i plain
    rw [Bool.or_eq_true, decide_eq_true_eq, decide_eq_true_eq, not_or] at plain
    split
    · exact .inr (.inl rfl)
    · exact .inr (.inr ⟨plain.2, plain.1, rfl⟩)

theorem mem_hexDigits {n : Nat} {c : Char} (h : c ∈ hexDigits n) : c ≠ '\x7d' := by
  induction n using Nat.strongRecOn with
  | ind n ih =>
      rw [hexDigits, Nat.toDigits_eq_if (by decide)] at h
      split at h
      · rw [List.mem_singleton.mp h]
        exact Nat.digitChar_ne _ rfl
      · rcases List.mem_append.mp h with front | last
        · exact ih _ (Nat.div_lt_self (by omega) (by decide)) front
        · rw [List.mem_singleton.mp last]
          exact Nat.digitChar_ne _ rfl

/-- A code point in braces shows where it ends, and which character it names. -/
theorem codePoint_unique {c d : Char} {rest rest' : List Char}
    (same : hexDigits c.toNat ++ '\x7d' :: rest = hexDigits d.toNat ++ '\x7d' :: rest') :
    c = d ∧ rest = rest' := by
  have inside (n : Nat) : ∀ c ∈ hexDigits n, (c != '\x7d') = true :=
    fun _ h => bne_iff_ne.mpr (mem_hexDigits h)
  obtain ⟨digits, -, behind⟩ := stretch_unique (inside _) (inside _) rfl rfl same
  exact ⟨Char.toNat_inj.mp (toDigits_inj (by decide) (by decide) digits), behind⟩

theorem delimited_escapeChar : Delimited escapeChar := by
  intro c d rest rest' same
  rcases escapeChar_cases c with ⟨x, hx, rfl, hc⟩ | hc | ⟨slash, -, hc⟩ <;>
  rcases escapeChar_cases d with ⟨y, hy, rfl, hd⟩ | hd | ⟨slash', -, hd⟩ <;>
  simp only [hc, hd, List.cons_append, List.nil_append, List.append_assoc, List.cons.injEq,
    true_and] at same
  · exact ⟨congrArg unescape same.1, same.2⟩
  · exact absurd same.1 hx
  · exact absurd same.1.symm slash'
  · exact absurd same.1.symm hy
  · exact codePoint_unique same
  · exact absurd same.1.symm slash'
  · exact absurd same.1 slash
  · exact absurd same.1 slash
  · exact same

/-- Between the quotes no character is written with a quote in front. -/
theorem escapeChar_append_ne (c : Char) (rest rest' : List Char) :
    escapeChar c ++ rest ≠ '"' :: rest' := by
  rcases escapeChar_cases c with ⟨x, -, -, hc⟩ | hc | ⟨-, quote, hc⟩ <;> rw [hc] <;> simp_all

theorem delimited_quote : Delimited fun s : String => (quote s).toList := by
  intro s t rest rest' same
  simp only [quote_toList] at same
  obtain ⟨chars, behind⟩ :=
    ((delimited_escapeChar.closed escapeChar_append_ne).preceded ['"']) same
  exact ⟨String.toList_inj.mp chars, behind⟩

/-- What stands behind the first text of a list. -/
def quoteTail (names : List String) : List Char :=
  names.flatMap (fun name => ", ".toList ++ (quote name).toList) ++ [']']

theorem intercalate_cons (sep first : List Char) (others : List (List Char)) :
    sep.intercalate (first :: others) = first ++ others.flatMap (sep ++ ·) := by
  induction others generalizing first with
  | nil => simp
  | cons next others ih =>
      rw [List.intercalate_cons_cons, ih, List.flatMap_cons, List.append_assoc, List.append_assoc]

theorem quoteList_nil : (quoteList []).toList = ['[', ']'] := rfl

theorem quoteList_cons (name : String) (names : List String) :
    (quoteList (name :: names)).toList = '[' :: ((quote name).toList ++ quoteTail names) := by
  have printed : (quoteList (name :: names)).toList =
      '[' :: (", ".toList.intercalate (((name :: names).map quote).map String.toList) ++ [']']) := by
    rw [quoteList, String.toList_append, String.toList_append, String.toList_intercalate]
    rfl
  rw [printed, List.map_cons, List.map_cons, intercalate_cons, quoteTail, List.map_map,
    List.flatMap_map, List.append_assoc]
  rfl

theorem delimited_quoteTail : Delimited quoteTail :=
  (delimited_quote.preceded ", ".toList).closed fun _ _ _ => by simp

theorem delimited_quoteList : Delimited fun names : List String => (quoteList names).toList := by
  intro names names' rest rest' same
  cases names with
  | nil =>
      cases names' with
      | nil => exact ⟨rfl, List.append_cancel_left same⟩
      | cons name' names' =>
          simp only [quoteList_nil, quoteList_cons, quote_toList] at same
          exact absurd same (by simp)
  | cons name names =>
      cases names' with
      | nil => 
          simp only [quoteList_nil, quoteList_cons, quote_toList] at same
          exact absurd same (by simp)
      | cons name' names' =>
          simp only [quoteList_cons, List.cons_append, List.append_assoc, List.cons.injEq,
            true_and] at same
          obtain ⟨first, others⟩ := delimited_quote same
          obtain ⟨all, behind⟩ := delimited_quoteTail others
          exact ⟨by rw [first, all], behind⟩

end Text

namespace Duration

open Text

/-! ## 4. Durations -/

theorem isDigit_of_mem_fractionDigits {width n : Nat} {c : Char} (hn : n < Nat.pow 10 width)
    (h : c ∈ fractionDigits width n) : c.isDigit = true := by
  induction width generalizing n with
  | zero => cases h
  | succ width ih =>
      rw [fractionDigits] at h
      split at h
      · cases h
      · rcases List.mem_cons.mp h with rfl | rest
        · rw [Nat.isDigit_digitChar, decide_eq_true_eq]
          exact Nat.div_lt_of_lt_mul hn
        · exact ih (Nat.mod_lt _ (Nat.pow_pos (by decide))) rest

/-- The trailing zeros that are left out can be put back. -/
theorem fractionDigits_inj {width m n : Nat} (hm : m < Nat.pow 10 width)
    (hn : n < Nat.pow 10 width) (same : fractionDigits width m = fractionDigits width n) : m = n := by
  induction width generalizing m n with
  | zero => exact (Nat.lt_one_iff.mp hm).trans (Nat.lt_one_iff.mp hn).symm
  | succ width ih =>
      have digit {k : Nat} (hk : k < Nat.pow 10 (width + 1)) : k / Nat.pow 10 width < 16 :=
        Nat.lt_trans (Nat.div_lt_of_lt_mul hk) (by decide : 10 < 16)
      have below {k : Nat} : k % Nat.pow 10 width < Nat.pow 10 width :=
        Nat.mod_lt _ (Nat.pow_pos (by decide))
      rw [fractionDigits, fractionDigits] at same
      split at same <;> split at same
      · omega
      · cases same
      · cases same
      · obtain ⟨head, tail⟩ := List.cons.inj same
        have quotients := digitChar_inj (digit hm) (digit hn) head
        have remainders := ih below below tail
        rw [← Nat.div_add_mod m (Nat.pow 10 width), ← Nat.div_add_mod n (Nat.pow 10 width),
          quotients, remainders]

theorem fractionText_inj {width m n : Nat} (hm : m < Nat.pow 10 width)
    (hn : n < Nat.pow 10 width)
    (same : (fractionText width m).toList = (fractionText width n).toList) : m = n := by
  rw [fractionText, fractionText] at same
  split at same <;> split at same
  · omega
  · simp at same
  · simp at same
  · exact fractionDigits_inj hm hn (by simpa using same)

/-- The decimal of `ns` nanoseconds, without its unit. -/
def numeral (width ns : Nat) : List Char :=
  Nat.toDigits 10 (ns / Nat.pow 10 width) ++ (fractionText width (ns % Nat.pow 10 width)).toList

theorem inUnit_toList (width : Nat) (unit : String) (ns : Nat) :
    (inUnit width unit ns).toList = numeral width ns ++ unit.toList := by
  rw [inUnit, String.toList_append, String.toList_append, Nat.toString_eq_ofList_toDigits,
    String.toList_ofList, numeral]

/-- Whether the character may stand in the numeral of a duration. -/
def isNumeric (c : Char) : Bool := c.isDigit || c == '.'

theorem isNumeric_of_mem_numeral {width ns : Nat} {c : Char} (h : c ∈ numeral width ns) :
    isNumeric c = true := by
  rw [isNumeric, Bool.or_eq_true, beq_iff_eq]
  rcases List.mem_append.mp h with whole | fraction
  · exact .inl (Nat.isDigit_of_mem_toDigits (by decide) (by decide) whole)
  · rw [fractionText] at fraction
    split at fraction
    · cases fraction
    · rcases List.mem_cons.mp (by simpa using fraction) with rfl | digit
      · exact .inr rfl
      · exact .inl (isDigit_of_mem_fractionDigits (Nat.mod_lt _ (Nat.pow_pos (by decide))) digit)

/-- The whole part of a numeral ends where the fraction, or what is behind it, begins. -/
theorem fractionText_append (width n : Nat) :
    ∃ x rest, (fractionText width n).toList ++ ['s'] = x :: rest ∧ x.isDigit = false := by
  rw [fractionText]
  split
  · exact ⟨'s', [], rfl, rfl⟩
  · exact ⟨'.', fractionDigits width n ++ ['s'], by simp, rfl⟩

theorem numeral_inj {width m n : Nat} (same : numeral width m = numeral width n) : m = n := by
  have below {k : Nat} : k % Nat.pow 10 width < Nat.pow 10 width :=
    Nat.mod_lt _ (Nat.pow_pos (by decide))
  have isDigit {k : Nat} (c : Char) (h : c ∈ Nat.toDigits 10 k) : c.isDigit = true :=
    Nat.isDigit_of_mem_toDigits (by decide) (by decide) h
  obtain ⟨x, rest, hm, hx⟩ := fractionText_append width (m % Nat.pow 10 width)
  obtain ⟨y, rest', hn, hy⟩ := fractionText_append width (n % Nat.pow 10 width)
  have followed := congrArg (· ++ ['s']) same
  simp only [numeral, List.append_assoc, hm, hn] at followed
  obtain ⟨wholes, rfl, rfl⟩ := stretch_unique isDigit isDigit hx hy followed
  have quotients := toDigits_inj (by decide) (by decide) wholes
  have remainders := fractionText_inj below below (List.append_cancel_right (hm.trans hn.symm))
  rw [← Nat.div_add_mod m (Nat.pow 10 width), ← Nat.div_add_mod n (Nat.pow 10 width), quotients,
    remainders]

/-- The units: how many decimal places of a nanosecond they span, and how they are written. -/
def units : List (Nat × Char × List Char) :=
  [(9, 's', []), (6, 'm', ['s']), (3, 'µ', ['s']), (0, 'n', ['s'])]

theorem text_eq (d : Duration) : ∃ unit ∈ units,
    d.text.toList = numeral unit.1 d.ns ++ unit.2.1 :: unit.2.2 := by
  rw [text]
  split
  · exact ⟨(9, 's', []), by decide, inUnit_toList ..⟩
  split
  · exact ⟨(6, 'm', ['s']), by decide, inUnit_toList ..⟩
  split
  · exact ⟨(3, 'µ', ['s']), by decide, inUnit_toList ..⟩
  · exact ⟨(0, 'n', ['s']), by decide, inUnit_toList ..⟩

theorem delimited_text : Delimited fun d : Duration => d.text.toList := by
  intro c d rest rest' same
  obtain ⟨unit, listed, hc⟩ := text_eq c
  obtain ⟨unit', listed', hd⟩ := text_eq d
  simp only [hc, hd, List.append_assoc, List.cons_append] at same
  have letters : ∀ unit ∈ units, isNumeric unit.2.1 = false := by decide
  have apart : ∀ unit ∈ units, ∀ unit' ∈ units, unit.2.1 = unit'.2.1 → unit = unit' := by decide
  obtain ⟨numerals, letter, behind⟩ := stretch_unique (fun _ => isNumeric_of_mem_numeral)
    (fun _ => isNumeric_of_mem_numeral) (letters unit listed) (letters unit' listed') same
  obtain rfl := apart unit listed unit' listed' letter
  exact ⟨congrArg Duration.mk (numeral_inj numerals), List.append_cancel_left behind⟩

end Duration

end TaskEngine
