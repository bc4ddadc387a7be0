import RangeLedger.Proofs.Liquidity.Units

/-!
# What an offer backs, and what is left of it

Inside a range the liquidity of an offer is the smaller one of what either token backs, and is then
turned back into amounts: up to the price in one token, and from the price on in the other. Neither
way is exact. To find the liquidity, a product of square roots and a quotient are rounded, and the
quotient is by a width; to go back, the liquidity is multiplied by the same width, so that half of a
last digit of liquidity has become half of a last digit times the width. Whether this is worth a
unit of a token is a matter of how the width compares with the square of a unit, for the second
token, and with the product of the roots, for the first one.

Between positive roots that are no more than `10 ^ 18` apart it is not. No token is overdrawn, and
the one that backs the liquidity is used up but for a unit.

## Main results

* `le_units0_of_backed`, `le_units1_of_backed`: what backs a liquidity is used up but for a unit.
* `ofAmounts_within_one_unit`: what the liquidity of an offer inside a range takes of the offer.
-/

namespace RangeLedger

namespace Liquidity

open Rounding

variable {price lower upper liquidity taken0 taken1 : Dec} {n n0 n1 : Amount} {a b : Dec}

/-! ### What comes back of an amount -/

/-- **Liquidity that units of the first token back** takes all of them but for one. -/
theorem le_units0_of_backed (h : ofAmount0 n a b = .ok liquidity) (ha : 2 ≤ a.raw) (hb : 2 ≤ b.raw)
    (hpos : 0 < product a.raw b.raw) : n.toNat ≤ units0 liquidity.raw.natAbs a.raw b.raw + 1 := by
  obtain ⟨hwidth, hbacked⟩ := natAbs_ofAmount0 h
  have hclose := width_lt_of_two_le ha hb hpos
  have hround := (halfEven_bounds (n.toNat * product a.raw b.raw * Dec.scale) hwidth).2
  rw [← hbacked, Nat.mul_comm (width a.raw b.raw)] at hround
  have hspread := (spread_bounds liquidity.raw.natAbs a.raw b.raw).2
  have hunits := (units0_bounds liquidity.raw.natAbs hpos).2
  -- two units more would be worth two products
  by_contra hgap
  have hstep := Nat.mul_le_mul_left (product a.raw b.raw) (Nat.succ_le_of_lt (Nat.not_le.1 hgap))
  rw [Nat.succ_eq_add_one, Nat.mul_add, Nat.mul_add, Nat.mul_one,
    Nat.mul_comm (product a.raw b.raw) n.toNat] at hstep
  rw [Dec.scale] at hclose hround hspread hunits
  omega

/-- **Liquidity that units of the second token back** takes all of them but for one. -/
theorem le_units1_of_backed (h : ofAmount1 n a b = .ok liquidity)
    (hnarrow : width a.raw b.raw ≤ 2 * (Dec.scale * Dec.scale)) :
    n.toNat ≤ units1 liquidity.raw.natAbs a.raw b.raw + 1 := by
  obtain ⟨hwidth, hbacked⟩ := natAbs_ofAmount1 h
  have hround := (halfEven_bounds (n.toNat * Dec.scale * Dec.scale) hwidth).2
  rw [← hbacked, Nat.mul_comm (width a.raw b.raw)] at hround
  have hunits := (units1_bounds liquidity.raw.natAbs a.raw b.raw).2
  rw [Dec.scale] at hnarrow hround hunits
  omega

/-- What liquidity takes of the first token is found only where the product of the roots does not
round to zero. -/
theorem product_pos_of_amount0 (h : amount0 liquidity a b = .ok taken0) :
    0 < product a.raw b.raw := by
  rw [amount0] at h
  obtain ⟨w, -, h⟩ := bind_eq_ok_iff.1 h
  obtain ⟨p, hp, h⟩ := bind_eq_ok_iff.1 h
  obtain ⟨m, -, h⟩ := bind_eq_ok_iff.1 h
  rw [← natAbs_product hp]
  exact Int.natAbs_pos.2 (Dec.natAbs_quo h).1

/-! ### Signs -/

section

variable (ha : 0 ≤ a.raw) (hb : 0 ≤ b.raw)

/-- The width that is formed of two ordered roots is not negative. -/
theorem width_nonneg {w : Dec} (h : (ordered a b).2.sub (ordered a b).1 = .ok w) : 0 ≤ w.raw := by
  rw [Dec.sub_eq_ok_iff.1 h]
  obtain ⟨hordered, hle⟩ | ⟨hordered, hlt⟩ := ordered_cases a b
  · rw [hordered]
    exact Int.sub_nonneg_of_le hle
  · rw [hordered]
    exact Int.sub_nonneg_of_le (Int.le_of_lt hlt)

/-- No amount of the second token backs negative liquidity. -/
theorem ofAmount1_nonneg (h : ofAmount1 n a b = .ok liquidity) : 0 ≤ liquidity.raw := by
  obtain ⟨w, hw, h⟩ := bind_eq_ok_iff.1 h
  exact Dec.raw_quo_nonneg (Dec.raw_ofAmount_nonneg n) (width_nonneg hw) h

/-- Liquidity takes no negative amount of the second token. -/
theorem amount1_nonneg (hl : 0 ≤ liquidity.raw) (h : amount1 liquidity a b = .ok taken1) :
    0 ≤ taken1.raw := by
  obtain ⟨w, hw, h⟩ := bind_eq_ok_iff.1 h
  exact Dec.raw_mul_nonneg hl (width_nonneg hw) h

include ha hb

/-- The product that is formed of two ordered roots is not negative. -/
theorem product_nonneg {p : Dec} (h : (ordered a b).1.mul (ordered a b).2 = .ok p) :
    0 ≤ p.raw := by
  obtain ⟨hordered, -⟩ | ⟨hordered, -⟩ := ordered_cases a b
  · rw [hordered] at h
    exact Dec.raw_mul_nonneg ha hb h
  · rw [hordered] at h
    exact Dec.raw_mul_nonneg hb ha h

/-- No amount of the first token backs negative liquidity. -/
theorem ofAmount0_nonneg (h : ofAmount0 n a b = .ok liquidity) : 0 ≤ liquidity.raw := by
  obtain ⟨p, hp, h⟩ := bind_eq_ok_iff.1 h
  obtain ⟨w, hw, h⟩ := bind_eq_ok_iff.1 h
  obtain ⟨m, hm, h⟩ := bind_eq_ok_iff.1 h
  have hproduct := product_nonneg ha hb hp
  have hscaled := Dec.raw_mul_nonneg (Dec.raw_ofAmount_nonneg n) hproduct hm
  exact Dec.raw_quo_nonneg hscaled (width_nonneg hw) h

/-- Liquidity takes no negative amount of the first token. -/
theorem amount0_nonneg (hl : 0 ≤ liquidity.raw) (h : amount0 liquidity a b = .ok taken0) :
    0 ≤ taken0.raw := by
  obtain ⟨w, hw, h⟩ := bind_eq_ok_iff.1 h
  obtain ⟨p, hp, h⟩ := bind_eq_ok_iff.1 h
  obtain ⟨m, hm, h⟩ := bind_eq_ok_iff.1 h
  have hproduct := product_nonneg ha hb hp
  exact Dec.raw_quo_nonneg (Dec.raw_mul_nonneg hl (width_nonneg hw) hm) hproduct h

end

/-! ### Whole units -/

section

variable {backed taken : Dec} (hle : liquidity.raw ≤ backed.raw) (hnonneg : 0 ≤ liquidity.raw)

include hle hnonneg

/-- What liquidity takes of the first token has whole units, no more than those that back it or more
liquidity, and all of them but for one if they back no more. -/
theorem exists_units0 (hback : ofAmount0 n a b = .ok backed) (ha : 2 ≤ a.raw) (hb : 2 ≤ b.raw)
    (h : amount0 liquidity a b = .ok taken) :
    ∃ m, taken.truncate = .ok m ∧ m ≤ n ∧ (liquidity = backed → n.val - 1 ≤ m.val) := by
  have hmost := units0_le_of_backed hback (l := liquidity.raw.natAbs) (by omega) ha hb
  rw [← natAbs_amount0 h] at hmost
  obtain ⟨m, hm, hunits⟩ :=
    Dec.exists_truncate (amount0_nonneg (by omega) (by omega) hnonneg h) hmost
  rw [← hunits] at hmost
  refine ⟨m, hm, Amount.toNat_le_iff.1 hmost, fun hall => ?_⟩
  subst hall
  have hleast := le_units0_of_backed hback ha hb (product_pos_of_amount0 h)
  rw [← natAbs_amount0 h, ← hunits] at hleast
  exact Amount.sub_one_le_of_toNat hleast

/-- The same of the second token, over a range that is not too wide. -/
theorem exists_units1 (hback : ofAmount1 n a b = .ok backed)
    (hnarrow : width a.raw b.raw + Dec.scale < 2 * (Dec.scale * Dec.scale))
    (h : amount1 liquidity a b = .ok taken) :
    ∃ m, taken.truncate = .ok m ∧ m ≤ n ∧ (liquidity = backed → n.val - 1 ≤ m.val) := by
  have hmost := units1_le_of_backed hback (l := liquidity.raw.natAbs) (by omega) hnarrow
  rw [← natAbs_amount1 h] at hmost
  obtain ⟨m, hm, hunits⟩ := Dec.exists_truncate (amount1_nonneg hnonneg h) hmost
  rw [← hunits] at hmost
  refine ⟨m, hm, Amount.toNat_le_iff.1 hmost, fun hall => ?_⟩
  subst hall
  have hleast := le_units1_of_backed hback (by omega)
  rw [← natAbs_amount1 h, ← hunits] at hleast
  exact Amount.sub_one_le_of_toNat hleast

end

/-! ### Offers inside a range -/

/-- Inside a range both tokens back some liquidity, and that of the offer is the smaller one. -/
theorem ofAmounts_of_inside (hlower : lower < price) (hupper : price < upper)
    (h : ofAmounts price lower upper n0 n1 = .ok liquidity) :
    ∃ from0 from1, ofAmount0 n0 price upper = .ok from0 ∧ ofAmount1 n1 price lower = .ok from1 ∧
      liquidity.raw ≤ from0.raw ∧ liquidity.raw ≤ from1.raw ∧
      (liquidity = from0 ∨ liquidity = from1) := by
  have hordered : ordered lower upper = (lower, upper) :=
    if_neg (Int.lt_asymm (Int.lt_trans hlower hupper))
  rw [ofAmounts, hordered] at h
  simp only at h
  rw [if_neg (show ¬price ≤ lower from Int.not_le.2 hlower),
    if_pos (show price ≤ upper from Int.le_of_lt hupper)] at h
  obtain ⟨from0, h0, h⟩ := bind_eq_ok_iff.1 h
  obtain ⟨from1, h1, h⟩ := bind_eq_ok_iff.1 h
  cases h
  refine ⟨from0, from1, h0, h1, ?_⟩
  by_cases hle : from0 ≤ from1
  · have hmin : min from0 from1 = from0 := if_pos hle
    rw [hmin]
    exact ⟨Int.le_refl _, hle, .inl rfl⟩
  · have hmin : min from0 from1 = from1 := if_neg hle
    rw [hmin]
    exact ⟨Int.le_of_lt (Int.not_le.1 hle), Int.le_refl _, .inr rfl⟩

/-- **An offer inside a range is backed to within one unit.** Let the price be between two positive
boundaries that are not above `10 ^ 18`, and let an offer back some liquidity there. What this
liquidity takes of the two tokens then has whole units, which are no more than was offered; and the
token that backs the liquidity is used up but for one unit at most. -/
theorem ofAmounts_within_one_unit (hpositive : 0 < lower.raw) (hlower : lower < price)
    (hupper : price < upper) (hhigh : upper.raw ≤ 10 ^ 36)
    (h : ofAmounts price lower upper n0 n1 = .ok liquidity)
    (h0 : amount0 liquidity price upper = .ok taken0)
    (h1 : amount1 liquidity price lower = .ok taken1) :
    ∃ m0 m1, taken0.truncate = .ok m0 ∧ taken1.truncate = .ok m1 ∧ m0 ≤ n0 ∧ m1 ≤ n1 ∧
      ((ofAmount0 n0 price upper = .ok liquidity ∧ n0.val - 1 ≤ m0.val) ∨
        (ofAmount1 n1 price lower = .ok liquidity ∧ n1.val - 1 ≤ m1.val)) := by
  obtain ⟨from0, from1, hfrom0, hfrom1, hle0, hle1, hbinding⟩ := ofAmounts_of_inside hlower hupper h
  rw [Dec.lt_def] at hlower hupper
  have hnarrow : width price.raw lower.raw + Dec.scale < 2 * (Dec.scale * Dec.scale) := by
    rw [width, Dec.scale]
    omega
  have hnonneg : 0 ≤ liquidity.raw := by
    obtain rfl | rfl := hbinding
    · exact ofAmount0_nonneg (by omega) (by omega) hfrom0
    · exact ofAmount1_nonneg hfrom1
  obtain ⟨m0, hm0, hmost0, hused0⟩ :=
    exists_units0 hle0 hnonneg hfrom0 (by omega) (by omega) h0
  obtain ⟨m1, hm1, hmost1, hused1⟩ := exists_units1 hle1 hnonneg hfrom1 hnarrow h1
  refine ⟨m0, m1, hm0, hm1, hmost0, hmost1, ?_⟩
  obtain hall | hall := hbinding
  · exact .inl ⟨hall ▸ hfrom0, hused0 hall⟩
  · exact .inr ⟨hall ▸ hfrom1, hused1 hall⟩

/-- At a price of five thousand, between the roots of ticks `84220` and `86130`, the second token
backs the liquidity of an offer of a million and five thousand million units. At most one unit of it
is left, and of the first token more than two thousand are. -/
theorem ofAmounts_within_one_unit_sample :
    ∃ (price lower upper liquidity taken0 taken1 : Dec) (n0 n1 m0 m1 : Amount),
      lower < price ∧ price < upper ∧ n0.val = 1_000_000 ∧ n1.val = 5_000_000_000 ∧
      ofAmounts price lower upper n0 n1 = .ok liquidity ∧
      amount0 liquidity price upper = .ok taken0 ∧ amount1 liquidity price lower = .ok taken1 ∧
      taken0.truncate = .ok m0 ∧ taken1.truncate = .ok m1 ∧ m0.val = 997_568 ∧
      4_999_999_999 ≤ m1.val := by
  let price : Dec := ⟨70_710_678_118_654_752_440, by decide, by decide⟩
  let lower : Dec := ⟨67_409_736_371_483_168_742, by decide, by decide⟩
  let upper : Dec := ⟨74_164_432_534_484_123_605, by decide, by decide⟩
  let liquidity : Dec := ⟨1_514_719_247_706_887_470_270_366_521, by decide, by decide⟩
  let taken0 : Dec := ⟨997_568_936_312_316_997_369_298, by decide, by decide⟩
  let taken1 : Dec := ⟨4_999_999_999_999_999_999_999_999_998, by decide, by decide⟩
  let n0 : Amount := ⟨1_000_000, by decide, by decide⟩
  let n1 : Amount := ⟨5_000_000_000, by decide, by decide⟩
  have hback : ofAmounts price lower upper n0 n1 = .ok liquidity := by decide +kernel
  have htaken0 : amount0 liquidity price upper = .ok taken0 := by decide +kernel
  have htaken1 : amount1 liquidity price lower = .ok taken1 := by decide +kernel
  obtain ⟨m0, m1, hm0, hm1, -, -, hused⟩ := ofAmounts_within_one_unit (by decide) (by decide)
    (by decide) (by decide) hback htaken0 htaken1
  have hunits : taken0.truncate = .ok ⟨997_568, by decide, by decide⟩ := by decide +kernel
  obtain rfl : _ = m0 := Except.ok.inj (hunits.symm.trans hm0)
  obtain ⟨-, hleft⟩ | ⟨-, hleft⟩ := hused
  · exact absurd hleft (by decide)
  · exact ⟨price, lower, upper, liquidity, taken0, taken1, n0, n1, _, m1, by decide, by decide, rfl,
      rfl, hback, htaken0, htaken1, hm0, hm1, rfl, hleft⟩

end Liquidity

end RangeLedger
