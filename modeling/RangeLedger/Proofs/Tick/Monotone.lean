import RangeLedger.Proofs.Tick.Accuracy

/-!
# Prices are ordered like ticks

Neither a price nor a root ever goes down as the tick goes up. Whether they go up is a question of
digits: neighbouring ticks are a ten-thousandth apart, and where this is less than a last digit they
may read the same. A price that reads as `10001` last digits or more is not shared by the next tick,
nor is a root of `20001` last digits, as a root grows half as fast. Both follow from the accuracy of
what is read, and not from the way it is computed: two ticks that read the same would have exact
powers that are too close together.

Where this begins is then a matter of evaluating one tick.

## Main results

* `Tick.priceRaw_lt`, `Tick.sqrtPriceRaw_lt`: a price and a root that no higher tick shares.
* `Tick.price_ordered`: which ticks have prices and roots, and how these are ordered.
-/

namespace RangeLedger

namespace Tick

section

variable {t u : Int} (h : t < u) (ht : t.natAbs ≤ 887272) (hu : u.natAbs ≤ 887272)

/-- A higher tick stands for a power that is larger by a ten-thousandth or more. -/
theorem tickRatio_zpow_step (h : t < u) : 10001 / 10000 * tickRatio ^ t ≤ tickRatio ^ u := by
  have hratio : tickRatio ≠ 0 := by norm_num [tickRatio]
  calc 10001 / 10000 * tickRatio ^ t = tickRatio ^ (t + 1) := by
        rw [zpow_add_one₀ hratio, mul_comm]
        rfl
    _ ≤ tickRatio ^ u := zpow_le_zpow_right₀ (by norm_num [tickRatio]) h

include h ht hu

/-- **A price of many last digits** is below that of every higher tick. -/
theorem priceRaw_lt (hlarge : 10001 ≤ priceRaw t) : priceRaw t < priceRaw u := by
  have hstep := tickRatio_zpow_step h
  have hlow := (abs_le.1 (abs_priceRaw_sub_le ht)).2
  have hhigh := (abs_le.1 (abs_priceRaw_sub_le hu)).1
  have hlarge : (10001 : ℚ) ≤ priceRaw t := by exact_mod_cast hlarge
  by_contra hle
  have hle : (priceRaw u : ℚ) ≤ priceRaw t := by exact_mod_cast Nat.not_lt.1 hle
  linarith

/-- **A root of many last digits** is below that of every higher tick. -/
theorem sqrtPriceRaw_lt (hlarge : 20001 ≤ sqrtPriceRaw t) : sqrtPriceRaw t < sqrtPriceRaw u := by
  have hstep := tickRatio_zpow_step h
  have hlow := (sqrtPriceRaw_brackets ht).1 (by omega)
  have hhigh := (sqrtPriceRaw_brackets hu).2
  have hlarge : (20001 : ℚ) ≤ sqrtPriceRaw t := by exact_mod_cast hlarge
  by_contra hle
  have hle : (sqrtPriceRaw u : ℚ) ≤ sqrtPriceRaw t := by exact_mod_cast Nat.not_lt.1 hle
  have hnonneg : (0 : ℚ) ≤ sqrtPriceRaw u := Nat.cast_nonneg _
  generalize (sqrtPriceRaw t : ℚ) = r at hlow hlarge hle
  have hnext : ((sqrtPriceRaw u : ℚ) + 1 + 1 / 10 ^ 20) ^ 2 ≤ (r + 1 + 1 / 10 ^ 20) ^ 2 :=
    pow_le_pow_left₀ (by linarith) (by linarith) 2
  -- one bracket would hold two powers that are a ten-thousandth apart
  have hwide : 10001 / 10000 * (r - 1 / 10 ^ 20) ^ 2 < (r + 1 + 1 / 10 ^ 20) ^ 2 := by linarith
  have hsquare : 20001 * r ≤ r ^ 2 := by
    rw [sq]
    exact mul_le_mul_of_nonneg_right hlarge (by linarith)
  linarith

/-- From tick `-322000` on no two ticks share a price. -/
theorem priceRaw_lt_from (hfrom : -322000 ≤ t) : priceRaw t < priceRaw u := by
  have hfirst : 10001 ≤ priceRaw (-322000) := by decide
  have hmono := priceRaw_mono hfrom (by decide) (by omega)
  exact priceRaw_lt h ht hu (hfirst.trans hmono)

/-- From tick `-630000` on no two ticks share a root. -/
theorem sqrtPriceRaw_lt_from (hfrom : -630000 ≤ t) : sqrtPriceRaw t < sqrtPriceRaw u := by
  have hfirst : 20001 ≤ sqrtPriceRaw (-630000) := by decide +kernel
  have hmono := sqrtPriceRaw_mono hfrom (by decide) (by omega)
  exact sqrtPriceRaw_lt h ht hu (hfirst.trans hmono)

end

/-! ### The order -/

/-- **Prices and roots are ordered like ticks.** Every tick in bounds has a price, and a positive
root or else none because it would be too small; a tick out of bounds has neither. Of two ticks in
bounds the lower one has no higher price, and a lower one from tick `-322000` on. If it has a root,
so has the other one, and it is no lower, and higher from tick `-630000` on. -/
theorem price_ordered (a b : Tick) :
    (a.InBounds → (∃ price, a.price = .ok price) ∧
      ((∃ root, a.sqrtPrice = .ok root ∧ 0 < root.raw) ∨
        a.sqrtPrice = .error (.sqrtPriceUnderflow a))) ∧
    (¬a.InBounds →
      a.price = .error (.tickOutOfBounds a) ∧ a.sqrtPrice = .error (.tickOutOfBounds a)) ∧
    (a < b → a.InBounds → b.InBounds →
      (∃ price price', a.price = .ok price ∧ b.price = .ok price' ∧ price ≤ price' ∧
        (-322000 ≤ a.val → price < price')) ∧
      ∀ root, a.sqrtPrice = .ok root → ∃ root', b.sqrtPrice = .ok root' ∧ root ≤ root' ∧
        (-630000 ≤ a.val → root < root')) := by
  refine ⟨fun ha => ⟨exists_price ha, ?_⟩, price_eq_error_of_outOfBounds, fun hlt ha hb => ?_⟩
  · obtain ⟨root, hroot, -, hpos⟩ | ⟨hunder, -⟩ := sqrtPrice_cases ha
    · exact .inl ⟨root, hroot, hpos⟩
    · exact .inr hunder
  have hrange := ha.natAbs_le
  have hrange' := hb.natAbs_le
  rw [Bounded.lt_def] at hlt
  constructor
  · obtain ⟨price, hprice⟩ := exists_price ha
    obtain ⟨price', hprice'⟩ := exists_price hb
    have hraw := (price_eq_ok_iff.1 hprice).2
    have hraw' := (price_eq_ok_iff.1 hprice').2
    refine ⟨price, price', hprice, hprice', ?_, fun hfrom => ?_⟩
    · rw [Dec.le_def, hraw, hraw', Int.ofNat_le]
      exact priceRaw_mono (Int.le_of_lt hlt) (by omega) (by omega)
    · rw [Dec.lt_def, hraw, hraw', Int.ofNat_lt]
      exact priceRaw_lt_from hlt hrange hrange' hfrom
  · intro root hroot
    obtain ⟨-, hraw, hpos⟩ := sqrtPrice_eq_ok_iff.1 hroot
    have hmono := sqrtPriceRaw_mono (Int.le_of_lt hlt) (by omega) (by omega)
    obtain ⟨root', hroot', hraw'⟩ := exists_sqrtPrice hb (by omega)
    refine ⟨root', hroot', ?_, fun hfrom => ?_⟩
    · rw [Dec.le_def, hraw, hraw', Int.ofNat_le]
      exact hmono
    · rw [Dec.lt_def, hraw, hraw', Int.ofNat_lt]
      exact sqrtPriceRaw_lt_from hlt hrange hrange' hfrom

end Tick

end RangeLedger
