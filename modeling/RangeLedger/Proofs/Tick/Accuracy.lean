import RangeLedger.Proofs.Tick.Search

/-!
# How accurate prices and roots are

The price of a tick is the power of the ratio that the tick stands for, and is computed in three
steps: the power is taken with seventy-two fraction digits, below zero it is inverted, and the
outcome is rounded to a decimal. The first step is off by a count of roundings, relative to the
power, and the count stays below a million. So the **computed ratio** of a tick, which is what is
rounded in the end, is off by less than `10 ^ -66` of itself, on either side of zero.

Against that the last rounding is coarse. A price is within half of a last digit of the exact power,
but for a billionth of one at the highest prices. A root, rounded down, brackets the exact power
between its own square and that of the next decimal, but for `10 ^ -20` of a last digit: the root is
rounded twice, and still no digit is lost, because an integer root does not see fractions.

## Main results

* `Tick.abs_computedRatio_sub_le`: the computed ratio against the exact power.
* `Tick.abs_priceRaw_sub_le`, `Tick.sqrtPriceRaw_brackets`: price and root against the exact power.
* `Tick.price_accurate`: the price and the root of a tick are accurate to the last digit.
-/

namespace RangeLedger

namespace Tick

/-! ### The computed ratio -/

/-- The power of the ratio that a tick stands for, as it is computed. -/
def computedRatio (t : Int) : ℚ :=
  if t < 0 then wideOne / widePower t.natAbs else widePower t.natAbs / wideOne

/-- What is close to a multiple of a number gives the number when it is divided, and its inverse
when it divides, with an error that is small relative to the outcome. -/
theorem abs_div_sub_le_of_close {w one p m ε : ℚ} (hone : 0 < one) (hp : 0 < p) (hε : 0 ≤ ε)
    (h : |w - one * p| ≤ m * p) (hm : m ≤ ε * (one - m)) (hsmall : m < one) :
    |w / one - p| ≤ ε * p ∧ |one / w - p⁻¹| ≤ ε * p⁻¹ := by
  have hcount : 0 ≤ m := nonneg_of_mul_nonneg_left ((abs_nonneg _).trans h) hp
  have hlow : (one - m) * p ≤ w := by linarith [(abs_le.1 h).1]
  have hw : 0 < w := lt_of_lt_of_le (mul_pos (sub_pos.2 hsmall) hp) hlow
  constructor
  · have hweak : m ≤ ε * one := hm.trans (mul_le_mul_of_nonneg_left (by linarith) hε)
    rw [div_sub' hone.ne', abs_div, abs_of_pos hone, div_le_iff₀ hone]
    calc |w - one * p| ≤ m * p := h
      _ ≤ ε * one * p := mul_le_mul_of_nonneg_right hweak hp.le
      _ = ε * p * one := by ring
  · have hsplit : one / w - p⁻¹ = -((w - one * p) / (w * p)) := by
      field_simp
      ring
    rw [hsplit, abs_neg, abs_div, abs_of_pos (mul_pos hw hp), div_le_iff₀ (mul_pos hw hp)]
    calc |w - one * p| ≤ m * p := h
      _ ≤ ε * (one - m) * p := mul_le_mul_of_nonneg_right hm hp.le
      _ = ε * ((one - m) * p) := by ring
      _ ≤ ε * w := mul_le_mul_of_nonneg_left hlow hε
      _ = ε * p⁻¹ * (w * p) := by field_simp

section

variable {t : Int} (ht : t.natAbs ≤ 887272)

include ht

/-- **The computed ratio of a tick** is off by less than `10 ^ -66` of the exact power. -/
theorem abs_computedRatio_sub_le :
    |computedRatio t - tickRatio ^ t| ≤ 1 / 10 ^ 66 * tickRatio ^ t := by
  have hnear := near_widePower (e := t.natAbs) (ht.trans (by decide))
  have hcount : ((t.natAbs - 1 : Nat) : ℚ) ≤ 887272 := by
    exact_mod_cast (by omega : t.natAbs - 1 ≤ 887272)
  have hone : (wideOne : ℚ) = 10 ^ 72 := by norm_num [wideOne]
  obtain ⟨hup, hdown⟩ := abs_div_sub_le_of_close (ε := 1 / 10 ^ 66)
    (by rw [hone]; norm_num) (tickRatio_pow_pos t.natAbs) (by norm_num) hnear
    (by rw [hone]; linarith) (by rw [hone]; linarith)
  rw [computedRatio]
  by_cases hneg : t < 0
  · have hpow : tickRatio ^ t = (tickRatio ^ t.natAbs)⁻¹ := by
      rw [← zpow_natCast, ← zpow_neg, Int.ofNat_natAbs_of_nonpos (Int.le_of_lt hneg), Int.neg_neg]
    rw [if_pos hneg, hpow]
    exact hdown
  · have hpow : tickRatio ^ t = tickRatio ^ t.natAbs := by
      rw [← zpow_natCast, Int.natAbs_of_nonneg (Int.not_lt.1 hneg)]
    rw [if_neg hneg, hpow]
    exact hup

/-- No tick stands for more than `10 ^ 39`. -/
theorem tickRatio_zpow_le : tickRatio ^ t ≤ 10 ^ 39 := by
  have htop : widePower 887272 ≤ wideOne * (5 * 10 ^ 38) := by decide
  have htop : (widePower 887272 : ℚ) ≤ wideOne * (5 * 10 ^ 38) := by exact_mod_cast htop
  have hnear := (abs_le.1 (near_widePower (e := 887272) (by decide))).1
  have hone : (wideOne : ℚ) = 10 ^ 72 := by norm_num [wideOne]
  have hmax : tickRatio ^ (887272 : Nat) ≤ 10 ^ 39 := by
    rw [hone] at htop hnear
    generalize tickRatio ^ (887272 : Nat) = top at hnear ⊢
    push_cast at hnear
    linarith
  calc tickRatio ^ t ≤ tickRatio ^ (887272 : Int) :=
        zpow_le_zpow_right₀ (by norm_num [tickRatio]) (by omega)
    _ = tickRatio ^ (887272 : Nat) := zpow_natCast tickRatio 887272
    _ ≤ 10 ^ 39 := hmax

/-! ### The last rounding -/

/-- The price is within one half of the computed ratio, in last digits. -/
theorem abs_priceRaw_sub_computedRatio_le :
    |(priceRaw t : ℚ) - 10 ^ 18 * computedRatio t| ≤ 1 / 2 := by
  have hpos : 0 < widePower t.natAbs :=
    Nat.lt_of_lt_of_le wideOne_pos (wideOne_le_widePower (ht.trans (by decide)))
  rw [priceRaw, computedRatio]
  by_cases hneg : t < 0
  · have hround := Rounding.abs_halfEven_sub_le (Nat.pow 10 90) hpos
    have hscale : (10 : ℚ) ^ 18 * (wideOne / widePower t.natAbs) =
        (Nat.pow 10 90 : Nat) / widePower t.natAbs := by
      norm_num [wideOne, ← mul_div_assoc]
    rwa [if_pos hneg, if_pos hneg, hscale]
  · have hround :=
      Rounding.abs_halfEven_sub_le (widePower t.natAbs) (d := Nat.pow 10 54) (by decide)
    have hscale : (10 : ℚ) ^ 18 * (widePower t.natAbs / wideOne) =
        widePower t.natAbs / (Nat.pow 10 54 : Nat) := by
      norm_num [wideOne]
      ring
    rwa [if_neg hneg, if_neg hneg, hscale]

/-- **The price of a tick** is within half of a last digit of the exact power, but for a billionth.
-/
theorem abs_priceRaw_sub_le :
    |(priceRaw t : ℚ) - 10 ^ 18 * tickRatio ^ t| ≤ 1 / 2 + 1 / 10 ^ 9 := by
  have hround := abs_priceRaw_sub_computedRatio_le ht
  have hratio := abs_computedRatio_sub_le ht
  have hmax := tickRatio_zpow_le ht
  calc |(priceRaw t : ℚ) - 10 ^ 18 * tickRatio ^ t|
      ≤ |(priceRaw t : ℚ) - 10 ^ 18 * computedRatio t| +
          |10 ^ 18 * computedRatio t - 10 ^ 18 * tickRatio ^ t| := abs_sub_le _ _ _
    _ = |(priceRaw t : ℚ) - 10 ^ 18 * computedRatio t| +
          10 ^ 18 * |computedRatio t - tickRatio ^ t| := by
        rw [← mul_sub, abs_mul, abs_of_nonneg (by norm_num : (0 : ℚ) ≤ 10 ^ 18)]
    _ ≤ 1 / 2 + 1 / 10 ^ 9 := by linarith

end

/-- What the root is taken from is the computed ratio, rounded down. -/
theorem squaredSqrtPriceRaw_eq_floor (t : Int) :
    squaredSqrtPriceRaw t = ⌊10 ^ 36 * computedRatio t⌋₊ := by
  rw [squaredSqrtPriceRaw, computedRatio]
  by_cases hneg : t < 0
  · have hscale : (10 : ℚ) ^ 36 * (wideOne / widePower t.natAbs) =
        (Nat.pow 10 108 : Nat) / widePower t.natAbs := by
      norm_num [wideOne, ← mul_div_assoc]
    rw [if_pos hneg, if_pos hneg, hscale, Nat.floor_div_eq_div]
  · have hscale : (10 : ℚ) ^ 36 * (widePower t.natAbs / wideOne) =
        widePower t.natAbs / (Nat.pow 10 36 : Nat) := by
      norm_num [wideOne]
      ring
    rw [if_neg hneg, if_neg hneg, hscale, Nat.floor_div_eq_div]

/-- **An integer root does not see fractions**: the computed ratio is between the square of the root
and that of the next number. -/
theorem sqrtPriceRaw_brackets_computedRatio (t : Int) :
    (sqrtPriceRaw t : ℚ) ^ 2 ≤ 10 ^ 36 * computedRatio t ∧
      10 ^ 36 * computedRatio t < ((sqrtPriceRaw t : ℚ) + 1) ^ 2 := by
  have hnonneg : 0 ≤ 10 ^ 36 * computedRatio t := by
    rw [computedRatio]
    split <;> positivity
  have hfloor := Nat.floor_le hnonneg
  have hceil := Nat.lt_floor_add_one (10 ^ 36 * computedRatio t)
  rw [← squaredSqrtPriceRaw_eq_floor] at hfloor hceil
  have hroot : sqrtPriceRaw t ^ 2 ≤ squaredSqrtPriceRaw t := Nat.sqrt_le' _
  have hnext : squaredSqrtPriceRaw t + 1 ≤ (sqrtPriceRaw t + 1) ^ 2 := Nat.lt_succ_sqrt' _
  have hroot : (sqrtPriceRaw t : ℚ) ^ 2 ≤ squaredSqrtPriceRaw t := by exact_mod_cast hroot
  have hnext : (squaredSqrtPriceRaw t : ℚ) + 1 ≤ ((sqrtPriceRaw t : ℚ) + 1) ^ 2 := by
    exact_mod_cast hnext
  exact ⟨hroot.trans hfloor, hceil.trans_le hnext⟩

/-- A bracket of a number is one of every number close to it, but for a small part of its width. -/
theorem bracket_of_close {r x y : ℚ} (hr : 0 ≤ r) (hmax : r ≤ 10 ^ 38) (hlow : r ^ 2 ≤ y)
    (hhigh : y < (r + 1) ^ 2) (hclose : |y - x| ≤ 1 / 10 ^ 66 * x) :
    (1 ≤ r → (r - 1 / 10 ^ 20) ^ 2 ≤ x) ∧ x < (r + 1 + 1 / 10 ^ 20) ^ 2 := by
  obtain ⟨hbelow, habove⟩ := abs_le.1 hclose
  -- what the number is off by is bounded by the upper end of the bracket, which it cannot pass
  have hsquare : (r + 1) ^ 2 ≤ 10 ^ 39 * (r + 1) := by
    rw [sq]
    exact mul_le_mul_of_nonneg_right (by linarith) (by linarith)
  have hoff : 1 / 10 ^ 66 * x ≤ 2 / 10 ^ 27 * (r + 1) := by linarith
  constructor
  · intro hone
    have hsplit : (r - 1 / 10 ^ 20) ^ 2 = r ^ 2 - 2 / 10 ^ 20 * r + 1 / 10 ^ 40 := by ring
    linarith
  · have hsplit : (r + 1 + 1 / 10 ^ 20) ^ 2 =
        (r + 1) ^ 2 + 2 / 10 ^ 20 * (r + 1) + 1 / 10 ^ 40 := by
      ring
    linarith

/-- **The root of a tick** brackets the exact power between its own square and that of the next
number, but for `10 ^ -20`. -/
theorem sqrtPriceRaw_brackets {t : Int} (ht : t.natAbs ≤ 887272) :
    (1 ≤ sqrtPriceRaw t →
        ((sqrtPriceRaw t : ℚ) - 1 / 10 ^ 20) ^ 2 ≤ 10 ^ 36 * tickRatio ^ t) ∧
      10 ^ 36 * tickRatio ^ t < ((sqrtPriceRaw t : ℚ) + 1 + 1 / 10 ^ 20) ^ 2 := by
  obtain ⟨hlow, hhigh⟩ := sqrtPriceRaw_brackets_computedRatio t
  have hclose : |10 ^ 36 * computedRatio t - 10 ^ 36 * tickRatio ^ t| ≤
      1 / 10 ^ 66 * (10 ^ 36 * tickRatio ^ t) := by
    rw [← mul_sub, abs_mul, abs_of_nonneg (by norm_num : (0 : ℚ) ≤ 10 ^ 36)]
    linarith [abs_computedRatio_sub_le ht]
  obtain ⟨hbelow, habove⟩ := bracket_of_close (Nat.cast_nonneg _)
    (by exact_mod_cast sqrtPriceRaw_le ht) hlow hhigh hclose
  exact ⟨fun hone => hbelow (by exact_mod_cast hone), habove⟩

/-! ### Accuracy -/

/-- **Prices and roots of ticks are accurate to the last digit.** A tick in bounds has a price,
which is within half of a last digit of the exact power of the ratio, but for a billionth of one.
If it has a root, the exact power is between the square of the root and that of the next decimal,
but for `10 ^ -20` of a last digit. If it has none, the exact root is below the first decimal, but
for the same. -/
theorem price_accurate {t : Tick} (h : t.InBounds) :
    (∃ price, t.price = .ok price ∧
      |(price.raw : ℚ) - 10 ^ 18 * tickRatio ^ t.val| ≤ 1 / 2 + 1 / 10 ^ 9) ∧
    (∀ root, t.sqrtPrice = .ok root →
      ((root.raw : ℚ) - 1 / 10 ^ 20) ^ 2 ≤ 10 ^ 36 * tickRatio ^ t.val ∧
        10 ^ 36 * tickRatio ^ t.val < ((root.raw : ℚ) + 1 + 1 / 10 ^ 20) ^ 2) ∧
    (t.sqrtPrice = .error (.sqrtPriceUnderflow t) →
      10 ^ 36 * tickRatio ^ t.val < (1 + 1 / 10 ^ 20) ^ 2) := by
  obtain ⟨hlow, hhigh⟩ := sqrtPriceRaw_brackets h.natAbs_le
  refine ⟨?_, fun root hroot => ?_, fun hunder => ?_⟩
  · obtain ⟨price, hprice⟩ := exists_price h
    refine ⟨price, hprice, ?_⟩
    rw [(price_eq_ok_iff.1 hprice).2]
    exact abs_priceRaw_sub_le h.natAbs_le
  · obtain ⟨-, hraw, hpos⟩ := sqrtPrice_eq_ok_iff.1 hroot
    rw [hraw] at hpos ⊢
    exact ⟨hlow (by omega), hhigh⟩
  · obtain ⟨root, hroot, -⟩ | ⟨-, hzero⟩ := sqrtPrice_cases h
    · rw [hroot] at hunder
      cases hunder
    · rwa [hzero, Nat.cast_zero, zero_add] at hhigh

/-- At the highest tick the powers are off by most, and at the lowest one there is no root. -/
theorem price_accurate_sample :
    (∃ price root, highest.price = .ok price ∧ highest.sqrtPrice = .ok root ∧
      |(price.raw : ℚ) - 10 ^ 18 * tickRatio ^ (887272 : Int)| ≤ 1 / 2 + 1 / 10 ^ 9 ∧
      ((root.raw : ℚ) - 1 / 10 ^ 20) ^ 2 ≤ 10 ^ 36 * tickRatio ^ (887272 : Int) ∧
      10 ^ 36 * tickRatio ^ (887272 : Int) < ((root.raw : ℚ) + 1 + 1 / 10 ^ 20) ^ 2) ∧
    lowest.sqrtPrice = .error (.sqrtPriceUnderflow lowest) ∧
      10 ^ 36 * tickRatio ^ (-887272 : Int) < (1 + 1 / 10 ^ 20) ^ 2 := by
  obtain ⟨⟨price, hprice, hclose⟩, hbracket, -⟩ := price_accurate (t := highest) (by decide)
  obtain ⟨-, -, hbelow⟩ := price_accurate (t := lowest) (by decide)
  obtain ⟨root, hroot⟩ : ∃ root, highest.sqrtPrice = .ok root :=
    (exists_sqrtPrice (by decide) (by decide +kernel)).imp fun _ h => h.1
  have hunder : lowest.sqrtPrice = .error (.sqrtPriceUnderflow lowest) := by decide
  exact ⟨⟨price, root, hprice, hroot, hclose, hbracket root hroot⟩, hunder, hbelow hunder⟩

end Tick

end RangeLedger
