/-!
# Rounding a quotient

A quotient of two integers is rounded to an integer in one of three ways. The direction is judged
on the magnitude, so the rounded quotient of `-n` is the negative of that of `n`.

## Main results

* `quotient_mul`: a quotient that is exact stays as it is in every mode.
* `quotient_le_down_succ`: no mode answers more than the successor of the floor.
* `signedQuotient_neg`: the sign passes through.
-/

namespace RangeLedger

/-- How a quotient that is not whole is made whole. -/
inductive Rounding where
  /-- Toward zero. -/
  | down
  /-- To the nearest whole number; a tie goes to the even one. -/
  | halfEven
  /-- Away from zero. -/
  | up
deriving DecidableEq

namespace Rounding

/-- The quotient `n / d` of natural numbers, rounded. -/
def quotient (mode : Rounding) (n d : Nat) : Nat :=
  let q := n / d
  let r := n % d
  match mode with
  | .down => q
  | .halfEven => if d < 2 * r ∨ (d = 2 * r ∧ q % 2 = 1) then q + 1 else q
  | .up => if r = 0 then q else q + 1

/-- The quotient `n / d` of integers, rounded by magnitude. -/
def signedQuotient (mode : Rounding) (n d : Int) : Int :=
  n.sign * d.sign * mode.quotient n.natAbs d.natAbs

/-- No mode answers more than the next whole number above the floor. -/
theorem quotient_le_down_succ (mode : Rounding) (n d : Nat) : mode.quotient n d ≤ n / d + 1 := by
  cases mode with
  | down => exact Nat.le_succ _
  | halfEven =>
    rw [quotient]
    split
    next => exact Nat.le_refl _
    next => exact Nat.le_succ _
  | up =>
    rw [quotient]
    split
    next => exact Nat.le_succ _
    next => exact Nat.le_refl _

/-- Zero stays zero in every mode. -/
@[simp] theorem quotient_zero (mode : Rounding) (d : Nat) : mode.quotient 0 d = 0 := by
  cases mode with
  | down => exact Nat.zero_div d
  | halfEven => simp [quotient]
  | up => simp [quotient]

/-- **A quotient that is exact stays as it is** in every mode: there is no remainder to judge. -/
theorem quotient_mul (mode : Rounding) {d : Nat} (hd : 0 < d) (q : Nat) :
    mode.quotient (q * d) d = q := by
  have hq : q * d / d = q := Nat.mul_div_cancel q hd
  have hr : q * d % d = 0 := Nat.mul_mod_left q d
  cases mode with
  | down => exact hq
  | halfEven =>
    simp only [quotient, hq, hr]
    rw [if_neg (by omega)]
  | up =>
    simp only [quotient, hq, hr]
    exact if_pos trivial

/-- The rounded quotient of the negative is the negative of the rounded quotient. -/
theorem signedQuotient_neg (mode : Rounding) (n d : Int) :
    mode.signedQuotient (-n) d = -mode.signedQuotient n d := by
  simp only [signedQuotient, Int.sign_neg, Int.natAbs_neg, Int.neg_mul]

end Rounding

end RangeLedger
