/-
  TaskEngine/Cancellation.lean
  ============================
  **Tokens that cancel what hangs on them.**

  Tokens form trees.  A token is known by its root and the path of child numbers that leads to it
  (the newest step first), so a descendant of a token is one whose path ends with the path of that
  token.  Cancelling a token cancels it and its descendants, those made later included, and nothing
  else (`isCancelled_cancel`).
-/
namespace TaskEngine

inductive TokenRoot where
  /-- A token that a caller holds, known by its name. -/
  | caller (name : String)
  /-- The token that an engine has before it is started. -/
  | engine
deriving DecidableEq, Repr

/-- A token: its root, and the child numbers that lead from there to it, the last step first. -/
structure Token where
  root : TokenRoot
  path : List Nat := []
deriving DecidableEq, Repr

namespace Token

def named (name : String) : Token := { root := .caller name }

def child (t : Token) (number : Nat) : Token := { t with path := number :: t.path }

/-- Whether `t` is `s` or hangs on it. -/
def isWithin (t s : Token) : Bool := t.root == s.root && s.path.isSuffixOf t.path

theorem isWithin_iff {t s : Token} : t.isWithin s = true ↔ t.root = s.root ∧ s.path <:+ t.path := by
  simp [isWithin]

theorem isWithin_refl (t : Token) : t.isWithin t = true := by
  simp [isWithin_iff]

theorem isWithin_trans {t s u : Token} (h : t.isWithin s = true) (hs : s.isWithin u = true) :
    t.isWithin u = true := by
  rw [isWithin_iff] at h hs ⊢
  exact ⟨h.1.trans hs.1, hs.2.trans h.2⟩

theorem isWithin_child (t : Token) (n : Nat) : (t.child n).isWithin t = true := by
  simp [isWithin_iff, child]

end Token

/-- Which tokens were cancelled, and the number that the next child gets. -/
structure Cancellation where
  cancelled : List Token := []
  nextChild : Nat := 0
deriving DecidableEq, Repr

namespace Cancellation

/-- Whether `t` or a token it hangs on was cancelled. -/
def isCancelled (c : Cancellation) (t : Token) : Bool := c.cancelled.any fun s => t.isWithin s

def cancel (c : Cancellation) (t : Token) : Cancellation :=
  { c with cancelled := t :: c.cancelled }

def child (c : Cancellation) (t : Token) : Token × Cancellation :=
  (t.child c.nextChild, { c with nextChild := c.nextChild + 1 })

/-- Cancelling `s` cancels `s` and what hangs on it, and nothing else. -/
theorem isCancelled_cancel (c : Cancellation) (s t : Token) :
    (c.cancel s).isCancelled t = (t.isWithin s || c.isCancelled t) := by
  simp [isCancelled, cancel]

@[simp] theorem isCancelled_child (c : Cancellation) (s t : Token) :
    (c.child s).2.isCancelled t = c.isCancelled t := rfl

/-- A child of a cancelled token is cancelled. -/
theorem isCancelled_of_isWithin {c : Cancellation} {s t : Token} (h : t.isWithin s = true)
    (hs : c.isCancelled s = true) : c.isCancelled t = true := by
  simp only [isCancelled, List.any_eq_true] at hs ⊢
  obtain ⟨u, hu, hsu⟩ := hs
  exact ⟨u, hu, Token.isWithin_trans h hsu⟩

end Cancellation

end TaskEngine
