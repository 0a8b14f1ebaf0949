/-
  TaskEngine/Time/Duration.lean
  =============================
  **Lengths of time, and their text.**

  A duration is a whole number of nanoseconds.  Its text uses the largest of the units second,
  millisecond, microsecond and nanosecond that the duration reaches, and gives the rest as an exact
  decimal fraction without trailing zeros: `1.5s`, `20ms`, `1.001µs`, `0ns`.
-/
namespace TaskEngine

structure Duration where
  ns : Nat
deriving DecidableEq, Repr, Inhabited

namespace Duration

def nsPerSecond : Nat := 1000000000

def nsPerMillisecond : Nat := 1000000

def nsPerMicrosecond : Nat := 1000

def zero : Duration := ⟨0⟩

def ofMilliseconds (n : Nat) : Duration := ⟨n * nsPerMillisecond⟩

def ofParts (seconds nanos : Nat) : Duration := ⟨seconds * nsPerSecond + nanos⟩

def seconds (d : Duration) : Nat := d.ns / nsPerSecond

/-- Nanoseconds beyond the whole seconds. -/
def subsecond (d : Duration) : Nat := d.ns % nsPerSecond

def isZero (d : Duration) : Bool := d.ns == 0

/-- The largest number of milliseconds that events carry. -/
def compactLimit : Nat := 4294967295

/-- Whole milliseconds, cut off at `compactLimit`. -/
def compactMilliseconds (d : Duration) : Nat := min (d.ns / nsPerMillisecond) compactLimit

/-! ### Text -/

/-- The `width` decimal digits of `n` (for `n < 10 ^ width`) up to the last one that is not zero. -/
def fractionDigits : (width n : Nat) → List Char
  | 0, _ => []
  | width + 1, n =>
      if n = 0 then []
      else Nat.digitChar (n / Nat.pow 10 width) :: fractionDigits width (n % Nat.pow 10 width)

/-- The fractional part of a decimal: nothing for zero, else a point and the digits. -/
def fractionText (width n : Nat) : String :=
  if n = 0 then "" else String.ofList ('.' :: fractionDigits width n)

/-- `ns` nanoseconds as a decimal of a unit of `10 ^ width` nanoseconds. -/
def inUnit (width : Nat) (unit : String) (ns : Nat) : String :=
  toString (ns / Nat.pow 10 width) ++ fractionText width (ns % Nat.pow 10 width) ++ unit

/-- The text of a duration, in the largest unit that it reaches. -/
def text (d : Duration) : String :=
  if nsPerSecond ≤ d.ns then inUnit 9 "s" d.ns
  else if nsPerMillisecond ≤ d.ns then inUnit 6 "ms" d.ns
  else if nsPerMicrosecond ≤ d.ns then inUnit 3 "µs" d.ns
  else inUnit 0 "ns" d.ns

theorem ofParts_seconds (d : Duration) : ofParts d.seconds d.subsecond = d := by
  cases d
  simp [ofParts, seconds, subsecond, Nat.div_add_mod']

theorem seconds_ofParts {s n : Nat} (h : n < nsPerSecond) : (ofParts s n).seconds = s := by
  simp only [ofParts, seconds, nsPerSecond] at *
  omega

theorem subsecond_ofParts {s n : Nat} (h : n < nsPerSecond) : (ofParts s n).subsecond = n := by
  simp only [ofParts, subsecond, nsPerSecond] at *
  omega

theorem compactMilliseconds_le (d : Duration) : d.compactMilliseconds ≤ compactLimit :=
  Nat.min_le_right ..

end Duration

end TaskEngine
