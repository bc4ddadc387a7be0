import RangeLedger.Dec
import RangeLedger.Text.Digits

/-!
# The written form of a decimal

A decimal is written as an optional minus sign, the integer part without a superfluous leading
zero, a point, and exactly eighteen fraction digits. Zero has no sign.
-/

namespace RangeLedger.Dec

/-- The characters of the written form. -/
def chars (a : Dec) : List Char :=
  (if a.raw < 0 then ['-'] else []) ++ Digits.ofNat (a.raw.natAbs / scale) ++
    '.' :: Digits.padded precision (a.raw.natAbs % scale)

/-- The written form. -/
def toText (a : Dec) : String := String.ofList a.chars

/-- The text of a decimal, as a list of characters. -/
@[simp] theorem toList_toText (a : Dec) : a.toText.toList = a.chars := by
  simp [toText]

end RangeLedger.Dec
