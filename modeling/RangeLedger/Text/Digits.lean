/-!
# Decimal digits

Natural numbers are written with the decimal digits `0` to `9`, without a superfluous leading
zero, or padded with zeros to a fixed width.

## Main results

* `value_ofNat`: the written digits of a number read back as the number.
* `value_padded`: so do the padded ones.
* `allDigits_ofNat`: writing uses digits only.
-/

namespace RangeLedger.Digits

/-- The digits of a natural number, without a superfluous leading zero. -/
def ofNat (n : Nat) : List Char := Nat.toDigits 10 n

/-- The digits of a natural number with zeros in front, up to the given width. -/
def padded (width n : Nat) : List Char := (ofNat n).leftpad width '0'

/-- The number that a list of digits denotes. -/
def value (ds : List Char) : Nat := Nat.ofDigitChars 10 ds 0

/-- Whether every character is one of the ten ASCII digits. -/
def allDigits (cs : List Char) : Bool := cs.all Char.isDigit

/-- A number is the value of its digits. -/
@[simp] theorem value_ofNat (n : Nat) : value (ofNat n) = n :=
  Nat.ofDigitChars_toDigits (by decide) (by decide)

/-- Padding with zeros does not change the value. -/
@[simp] theorem value_padded (width n : Nat) : value (padded width n) = n := by
  simp only [value, padded, List.leftpad, Nat.ofDigitChars_append, Nat.ofDigitChars_replicate_zero]
  exact value_ofNat n

/-- A number is written with digits. -/
theorem isDigit_of_mem_ofNat {n : Nat} {c : Char} (h : c ∈ ofNat n) : c.isDigit = true :=
  Nat.isDigit_of_mem_toDigits (by decide) (by decide) h

/-- What is written for a number is digits only. -/
@[simp] theorem allDigits_ofNat (n : Nat) : allDigits (ofNat n) = true :=
  List.all_eq_true.2 fun _ h => isDigit_of_mem_ofNat h

/-- So is what is written for a number with padding. -/
@[simp] theorem allDigits_padded (width n : Nat) : allDigits (padded width n) = true := by
  refine List.all_eq_true.2 fun c h => ?_
  rcases List.mem_append.1 h with h | h
  · rw [(List.mem_replicate.1 h).2]
    rfl
  · exact isDigit_of_mem_ofNat h

/-- A number below `10 ^ width` is padded to exactly `width` digits. -/
theorem length_padded {width n : Nat} (hw : 0 < width) (h : n < Nat.pow 10 width) :
    (padded width n).length = width := by
  have := (Nat.length_toDigits_le_iff (b := 10) (by decide) hw).2 h
  simp only [padded, ofNat, List.leftpad, List.length_append, List.length_replicate]
  omega

end RangeLedger.Digits
