/-
  TaskEngine/Text/Quoted.lean
  ===========================
  **Texts in double quotes.**

  Messages that mention a name show it quoted: the quote and the backslash are preceded by a
  backslash, four control characters have a letter of their own, every other unprintable character
  is named by its code point as `\u{…}`, and all else stands for itself.  A list of names is written
  in brackets.

  `quote_toList` and `escape_append` say how the form is put together.
-/
import TaskEngine.Text.Unprintable

namespace TaskEngine.Text

/-- The lower-case hexadecimal digits of `n`, without leading zeros. -/
def hexDigits (n : Nat) : List Char := Nat.toDigits 16 n

/-- How one character is written between the quotes. -/
def escapeChar (c : Char) : List Char :=
  if c = '\x00' then ['\\', '0']
  else if c = '\t' then ['\\', 't']
  else if c = '\r' then ['\\', 'r']
  else if c = '\n' then ['\\', 'n']
  else if c = '"' || c = '\\' then ['\\', c]
  else if isUnprintable c then ['\\', 'u', '\x7b'] ++ hexDigits c.toNat ++ ['\x7d']
  else [c]

def escape (s : List Char) : List Char := s.flatMap escapeChar

def quote (s : String) : String := String.ofList ('"' :: escape s.toList ++ ['"'])

/-- A list of quoted texts, in brackets and separated by commas. -/
def quoteList (names : List String) : String :=
  "[" ++ ", ".intercalate (names.map quote) ++ "]"

@[simp] theorem escape_nil : escape [] = [] := rfl

@[simp] theorem escape_cons (c : Char) (s : List Char) :
    escape (c :: s) = escapeChar c ++ escape s := rfl

theorem escape_append (s t : List Char) : escape (s ++ t) = escape s ++ escape t := by
  simp [escape]

theorem quote_toList (s : String) : (quote s).toList = '"' :: escape s.toList ++ ['"'] := by
  simp [quote]

end TaskEngine.Text
