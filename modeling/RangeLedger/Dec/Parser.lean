import RangeLedger.Dec.Arithmetic

/-!
# Reading a decimal

A decimal is read from an optional minus sign, one or more ASCII digits, and optionally a point
followed by at most eighteen digits. Such a numeral with an integer part of `2 ^ 256` or more
counts as malformed; a smaller one whose value leaves the range is an overflow.
-/

namespace RangeLedger

/-- The parts of the text of a decimal. -/
structure Numeral where
  negative : Bool
  integer : List Char
  fraction : List Char
deriving DecidableEq

namespace Numeral

/-- The two sides of the first point; without a point all stands to its left. -/
def splitPoint (cs : List Char) : List Char × List Char :=
  (cs.takeWhile (· ≠ '.'), (cs.dropWhile (· ≠ '.')).drop 1)

/-- The parts of a text, whatever characters they hold. -/
def ofChars (cs : List Char) : Numeral :=
  match cs with
  | '-' :: rest => ⟨true, (splitPoint rest).1, (splitPoint rest).2⟩
  | _ => ⟨false, (splitPoint cs).1, (splitPoint cs).2⟩

/-- The parts are digits, some of them before the point and at most eighteen behind it. -/
def WellFormed (n : Numeral) : Prop :=
  n.integer ≠ [] ∧ n.fraction.length ≤ Dec.precision ∧
    Digits.allDigits n.integer = true ∧ Digits.allDigits n.fraction = true

instance (n : Numeral) : Decidable n.WellFormed := by
  unfold WellFormed
  infer_instance

/-- The value of the numeral times `10 ^ 18`, without its sign. -/
def magnitude (n : Numeral) : Nat :=
  Digits.value n.integer * Dec.scale +
    Digits.value n.fraction * Nat.pow 10 (Dec.precision - n.fraction.length)

/-- The value of the numeral times `10 ^ 18`. -/
def raw (n : Numeral) : Int := if n.negative then -(n.magnitude : Int) else n.magnitude

end Numeral

namespace Dec

/-- The decimal that a text denotes. -/
def parse (s : String) : Except MathError Dec :=
  let n := Numeral.ofChars s.toList
  if n.WellFormed ∧ Digits.value n.integer < wordSize then ofRaw n.raw
  else .error (.malformedDecimal s)

end Dec

end RangeLedger
