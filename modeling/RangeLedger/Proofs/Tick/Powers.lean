import RangeLedger.Proofs.Number.Nearest
import RangeLedger.Tick.Price

/-!
# Powers of the tick ratio

The power `1.0001 ^ e` is computed with seventy-two fraction digits, by squaring and multiplying,
and every product is rounded. What the roundings add up to is bounded here by counting them: a
number that stands for the power `e` is off by less than `e` units of the last digit, taken times
the power itself. Powers of zero and of one are exact, so the count starts at one.

Neighbouring powers are apart by a ten-thousandth of themselves, which is a wide gap at seventy-two
digits. So the computed powers increase as the exact ones do.

## Main results

* `Near.mul`: a rounded product stands for the sum of the exponents.
* `near_widePower`: how far a computed power is from the exact one.
* `widePower_error_linear`: the error is linear in the exponent, for every word.
* `widePower_mono`: the computed powers increase.
-/

namespace RangeLedger

/-- The ratio of the prices of neighbouring ticks. -/
def tickRatio : ℚ := 10001 / 10000

/-- A number with seventy-two fraction digits stands for a power of the ratio: it is off by less
than the exponent, in last digits times the power. -/
def Near (x e : Nat) : Prop :=
  |(x : ℚ) - wideOne * tickRatio ^ e| ≤ ((e - 1 : Nat) : ℚ) * tickRatio ^ e

/-- Powers of the ratio of neighbouring prices are at least one. -/
theorem one_le_tickRatio_pow (e : Nat) : 1 ≤ tickRatio ^ e :=
  one_le_pow₀ (by norm_num [tickRatio])

/-- Powers of the ratio are positive. -/
theorem tickRatio_pow_pos (e : Nat) : 0 < tickRatio ^ e :=
  lt_of_lt_of_le one_pos (one_le_tickRatio_pow e)

/-- The scale of the powers is positive. -/
theorem wideOne_pos : 0 < wideOne := by decide

/-- One is exact. -/
theorem near_wideOne : Near wideOne 0 := by
  simp [Near]

/-- The ratio that the powers start from is off by one last place at most. -/
theorem near_wideBase : Near wideBase 1 := by
  have hexact : (wideBase : ℚ) = wideOne * tickRatio := by
    norm_num [wideBase, wideOne, tickRatio]
  simp [Near, hexact]

/-- What stands for the power zero is one. -/
theorem Near.eq_wideOne {x : Nat} (h : Near x 0) : x = wideOne := by
  have hzero : (x : ℚ) - wideOne = 0 := by simpa [Near] using h
  exact_mod_cast sub_eq_zero.1 hzero

/-- A rounded product is within one half of the exact one. -/
theorem abs_wideMul_sub_le (x y : Nat) :
    |(wideMul x y : ℚ) - (x : ℚ) * y / wideOne| ≤ 1 / 2 := by
  have hround := Rounding.abs_halfEven_sub_le (x * y) wideOne_pos
  rwa [Nat.cast_mul] at hround

/-- The errors of two factors add up in their product, but for a part that is within one half. -/
theorem abs_mul_div_sub_le {x y one a b m n : ℚ} (hone : 0 < one) (ha : 0 < a) (hb : 0 < b)
    (hx : |x - one * a| ≤ m * a) (hy : |y - one * b| ≤ n * b) (hmn : 2 * (m * n) ≤ one) :
    |x * y / one - one * (a * b)| ≤ (m + n + 1 / 2) * (a * b) := by
  have hsplit : x * y / one - one * (a * b) = (x - one * a) * b + (y - one * b) * a +
      (x - one * a) * (y - one * b) / one := by
    field_simp
    ring
  have hfirst : |(x - one * a) * b| ≤ m * a * b := by
    rw [abs_mul, abs_of_pos hb]
    exact mul_le_mul_of_nonneg_right hx hb.le
  have hsecond : |(y - one * b) * a| ≤ n * b * a := by
    rw [abs_mul, abs_of_pos ha]
    exact mul_le_mul_of_nonneg_right hy ha.le
  have hboth : |(x - one * a) * (y - one * b) / one| ≤ 1 / 2 * (a * b) := by
    rw [abs_div, abs_mul, abs_of_pos hone, div_le_iff₀ hone]
    calc |x - one * a| * |y - one * b| ≤ m * a * (n * b) :=
          mul_le_mul hx hy (abs_nonneg _) ((abs_nonneg _).trans hx)
      _ = m * n * (a * b) := by ring
      _ ≤ one / 2 * (a * b) := mul_le_mul_of_nonneg_right (by linarith) (mul_pos ha hb).le
      _ = 1 / 2 * (a * b) * one := by ring
  rw [hsplit]
  refine (abs_add_three _ _ _).trans ?_
  linarith

/-- **A rounded product stands for the sum of the exponents.** -/
theorem Near.mul {x y m n : Nat} (hx : Near x m) (hy : Near y n) (hm : m ≤ 2 ^ 64)
    (hn : n ≤ 2 ^ 64) : Near (wideMul x y) (m + n) := by
  rcases Nat.eq_zero_or_pos m with rfl | hmpos
  · rw [hx.eq_wideOne, wideMul, Nat.mul_comm, Rounding.quotient_mul _ wideOne_pos, Nat.zero_add]
    exact hy
  rcases Nat.eq_zero_or_pos n with rfl | hnpos
  · rw [hy.eq_wideOne, wideMul, Rounding.quotient_mul _ wideOne_pos]
    exact hx
  have hsmall : (2 : ℚ) * (((m - 1 : Nat) : ℚ) * ((n - 1 : Nat) : ℚ)) ≤ wideOne := by
    have hle : (m - 1) * (n - 1) ≤ 2 ^ 64 * 2 ^ 64 := Nat.mul_le_mul (by omega) (by omega)
    have hwide : 2 * (2 ^ 64 * 2 ^ 64) ≤ wideOne := by decide
    exact_mod_cast (Nat.mul_le_mul_left 2 hle).trans hwide
  have hexact := abs_mul_div_sub_le (by exact_mod_cast wideOne_pos) (tickRatio_pow_pos m)
    (tickRatio_pow_pos n) hx hy hsmall
  have hround := abs_wideMul_sub_le x y
  have hone := one_le_tickRatio_pow (m + n)
  have hcount : ((m + n - 1 : Nat) : ℚ) = ((m - 1 : Nat) : ℚ) + ((n - 1 : Nat) : ℚ) + 1 := by
    exact_mod_cast (by omega : m + n - 1 = m - 1 + (n - 1) + 1)
  rw [Near, hcount]
  rw [← pow_add] at hexact
  calc |(wideMul x y : ℚ) - wideOne * tickRatio ^ (m + n)|
      ≤ |(wideMul x y : ℚ) - (x : ℚ) * y / wideOne| +
          |(x : ℚ) * y / wideOne - wideOne * tickRatio ^ (m + n)| := abs_sub_le _ _ _
    _ ≤ 1 / 2 + (((m - 1 : Nat) : ℚ) + ((n - 1 : Nat) : ℚ) + 1 / 2) * tickRatio ^ (m + n) :=
        add_le_add hround hexact
    _ ≤ (((m - 1 : Nat) : ℚ) + ((n - 1 : Nat) : ℚ) + 1) * tickRatio ^ (m + n) := by linarith

/-- **Reading the bits of an exponent** keeps the count: what is left to read, taken times the
exponent of the base, is what the power still lacks. -/
theorem near_widePowerLoop {fuel base power e k j : Nat} (hbase : Near base k)
    (hpower : Near power j) (hbits : e < 2 ^ fuel) (hsum : j + e * k ≤ 2 ^ 64) :
    Near (widePowerLoop fuel base power e) (j + e * k) := by
  induction fuel generalizing base power e k j with
  | zero =>
    obtain rfl : e = 0 := by simpa using hbits
    rw [Nat.zero_mul, Nat.add_zero]
    exact hpower
  | succ fuel ih =>
    rw [widePowerLoop]
    by_cases he : e = 0
    · rw [if_pos he, he, Nat.zero_mul, Nat.add_zero]
      exact hpower
    rw [if_neg he]
    have hk : k ≤ e * k := Nat.le_mul_of_pos_left k (Nat.pos_of_ne_zero he)
    have hdouble : Near (wideMul base base) (k + k) := hbase.mul hbase (by omega) (by omega)
    have hhalf : e / 2 < 2 ^ fuel := by
      rw [pow_succ] at hbits
      omega
    have hsplit : e * k = e / 2 * (k + k) + e % 2 * k := by
      conv_lhs => rw [← Nat.div_add_mod e 2]
      ring
    by_cases hodd : e % 2 = 1
    · rw [if_pos hodd]
      rw [hodd] at hsplit
      have heq : j + e * k = j + k + e / 2 * (k + k) := by omega
      rw [heq] at hsum ⊢
      exact ih hdouble (hpower.mul hbase (by omega) (by omega)) hhalf hsum
    · rw [if_neg hodd]
      rw [show e % 2 = 0 by omega] at hsplit
      have heq : j + e * k = j + e / 2 * (k + k) := by omega
      rw [heq] at hsum ⊢
      exact ih hdouble hpower hhalf hsum

/-- **A computed power stands for its exponent.** -/
theorem near_widePower {e : Nat} (h : e ≤ 2 ^ 64) : Near (widePower e) e := by
  have hloop := near_widePowerLoop near_wideBase near_wideOne (Nat.lt_log2_self (n := e))
    (by omega)
  rwa [Nat.zero_add, Nat.mul_one] at hloop

/-- A word of 64 bits, as a natural number. -/
theorem Word64.toNat_le (n : Word64) : n.toNat ≤ 2 ^ 64 := by
  have hmax := n.le_hi
  rw [Bounded.toNat]
  omega

/-- **The error of a computed power is linear in the exponent**: relative to the exact power it is at
most one unit of the seventy-second digit for each step of the exponent, whichever word that is. -/
theorem widePower_error_linear (e : Word64) :
    |(widePower e.toNat : ℚ) / 10 ^ 72 - tickRatio ^ e.toNat| ≤
      e.toNat * (1 / 10 ^ 72) * tickRatio ^ e.toNat := by
  have hnear := near_widePower e.toNat_le
  have hpos := tickRatio_pow_pos e.toNat
  have hone : (wideOne : ℚ) = 10 ^ 72 := by norm_num [wideOne]
  have hcount : ((e.toNat - 1 : Nat) : ℚ) ≤ e.toNat := by exact_mod_cast Nat.sub_le _ _
  rw [Near, hone] at hnear
  have hscale : (widePower e.toNat : ℚ) / 10 ^ 72 - tickRatio ^ e.toNat =
      (widePower e.toNat - 10 ^ 72 * tickRatio ^ e.toNat) / 10 ^ 72 := by
    field_simp
  rw [hscale, abs_div, abs_of_pos (by norm_num : (0 : ℚ) < 10 ^ 72), div_le_iff₀ (by norm_num)]
  calc |(widePower e.toNat : ℚ) - 10 ^ 72 * tickRatio ^ e.toNat|
      ≤ ((e.toNat - 1 : Nat) : ℚ) * tickRatio ^ e.toNat := hnear
    _ ≤ e.toNat * tickRatio ^ e.toNat := mul_le_mul_of_nonneg_right hcount hpos.le
    _ = e.toNat * (1 / 10 ^ 72) * tickRatio ^ e.toNat * 10 ^ 72 := by ring

/-! ### Neighbours -/

/-- Where one number stands for a power and another one for the next power, the other is larger. -/
theorem Near.lt_succ {x y e : Nat} (hx : Near x e) (hy : Near y (e + 1)) (he : e ≤ 2 ^ 64) :
    x < y := by
  have hpos := tickRatio_pow_pos e
  have hx := (abs_le.1 hx).2
  have hy := (abs_le.1 hy).1
  rw [Nat.add_sub_cancel, pow_succ] at hy
  have hcount : ((e - 1 : Nat) : ℚ) ≤ 2 ^ 64 := by exact_mod_cast (by omega : e - 1 ≤ 2 ^ 64)
  have hcount' : (e : ℚ) ≤ 2 ^ 64 := by exact_mod_cast he
  -- the gap between the two powers is wider than what both numbers are off by
  have hgap : (0 : ℚ) < (wideOne : ℚ) * (tickRatio - 1) - ((e - 1 : Nat) : ℚ) - e * tickRatio := by
    norm_num [wideOne, tickRatio]
    linarith
  have hwide := mul_pos hgap hpos
  have hlt : (x : ℚ) < y := by linarith
  exact_mod_cast hlt

/-- **The computed powers increase.** -/
theorem widePower_mono {e e' : Nat} (h : e ≤ e') (hmax : e' ≤ 2 ^ 64) :
    widePower e ≤ widePower e' := by
  induction e', h using Nat.le_induction with
  | base => exact Nat.le_refl _
  | succ n hle ih =>
    exact (ih (by omega)).trans
      ((near_widePower (by omega)).lt_succ (near_widePower hmax) (by omega)).le

/-- The power of no factors is one. -/
theorem widePower_zero : widePower 0 = wideOne := rfl

/-- No power is less than one. -/
theorem wideOne_le_widePower {e : Nat} (h : e ≤ 2 ^ 64) : wideOne ≤ widePower e :=
  widePower_zero ▸ widePower_mono (Nat.zero_le e) h

end RangeLedger
