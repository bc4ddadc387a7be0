import RangeLedger.Liquidity
import RangeLedger.Proofs.Failure
import RangeLedger.Proofs.Number.Nearest

/-!
# Token units of liquidity

Tokens come in whole units. A liquidity over a range takes an amount that is computed with one
rounding after each operation and then truncated, and this module tells what whole number of units
comes out, as a function of the raw integers alone (`units0`, `units1`).

The units of a sum are not the sum of the units. They are off by one at most, in either direction,
and this is what custody can lose or gain when liquidity is merged or split. The proof is the same
for both tokens: each number of units is pinned between two multiples of its divisor
(`units0_bounds`, `units1_bounds`), and three such bounds are compared. For the first token the
product of the liquidity and the width is rounded before it is divided, so that the three numerators
are themselves off by one.

## Main results

* `natAbs_amount0`, `natAbs_amount1`: the amounts of tokens, by magnitude and in whole units.
* `units0_merge`, `units1_merge`: the units of a sum are off by one at most.
* `units0_le_of_backed`, `units1_le_of_backed`: what the liquidity that some units back takes of
  them.
-/

namespace RangeLedger.Liquidity

open Rounding

/-! ### Widths and products -/

/-- The distance of two square roots of prices, as raw integers. -/
def width (x y : Int) : Nat := (y - x).natAbs

/-- The product of two square roots of prices, as a raw integer. -/
def product (x y : Int) : Nat := halfEven.quotient (x.natAbs * y.natAbs) Dec.scale

/-- The width does not depend on which root comes first. -/
theorem width_comm (x y : Int) : width x y = width y x := by
  simp only [width]
  omega

/-- The product does not depend on which root comes first. -/
theorem product_comm (x y : Int) : product x y = product y x := by
  simp only [product]
  rw [Nat.mul_comm]

/-- From a root to itself there is no width. -/
@[simp] theorem width_self (x : Int) : width x x = 0 := by
  rw [width]
  omega

/-- Two roots are ordered as they are or the other way round. -/
theorem ordered_cases (a b : Dec) :
    (ordered a b = (a, b) ∧ a.raw ≤ b.raw) ∨ (ordered a b = (b, a) ∧ b.raw < a.raw) := by
  rw [ordered]
  split
  next h => exact .inr ⟨rfl, h⟩
  next h => exact .inl ⟨rfl, Int.not_lt.1 h⟩

/-- The difference that is formed of two ordered roots is their width. -/
theorem natAbs_width {a b w : Dec} (h : (ordered a b).2.sub (ordered a b).1 = .ok w) :
    w.raw.natAbs = width a.raw b.raw := by
  rw [Dec.natAbs_sub h]
  obtain ⟨hordered, -⟩ | ⟨hordered, -⟩ := ordered_cases a b
  · rw [hordered]
    rfl
  · rw [hordered, width_comm]
    rfl

/-- The product that is formed of two ordered roots is theirs. -/
theorem natAbs_product {a b p : Dec} (h : (ordered a b).1.mul (ordered a b).2 = .ok p) :
    p.raw.natAbs = product a.raw b.raw := by
  rw [Dec.natAbs_mul h]
  obtain ⟨hordered, -⟩ | ⟨hordered, -⟩ := ordered_cases a b
  · rw [hordered]
    rfl
  · rw [hordered]
    exact product_comm b.raw a.raw

/-! ### Units of a liquidity -/

/-- The product of a liquidity and the width of a range, rounded. -/
def spread (liquidity : Nat) (x y : Int) : Nat :=
  halfEven.quotient (liquidity * width x y) Dec.scale

/-- The whole units of the first token that a liquidity takes between two square roots of prices. -/
def units0 (liquidity : Nat) (x y : Int) : Nat :=
  halfEven.quotient (spread liquidity x y * Dec.scale) (product x y) / Dec.scale

/-- The whole units of the second token that a liquidity takes between two square roots of prices.
-/
def units1 (liquidity : Nat) (x y : Int) : Nat := spread liquidity x y / Dec.scale

/-- The spread does not depend on which root comes first. -/
theorem spread_comm (liquidity : Nat) (x y : Int) :
    spread liquidity x y = spread liquidity y x := by
  simp only [spread]
  rw [width_comm]

/-- The units of the first token do not depend on which root comes first. -/
theorem units0_comm (liquidity : Nat) (x y : Int) :
    units0 liquidity x y = units0 liquidity y x := by
  simp only [units0]
  rw [spread_comm, product_comm]

/-- The units of the second token do not depend on which root comes first. -/
theorem units1_comm (liquidity : Nat) (x y : Int) :
    units1 liquidity x y = units1 liquidity y x := by
  simp only [units1]
  rw [spread_comm]

/-- **The whole units of the first token** in an amount that liquidity takes. -/
theorem natAbs_amount0 {liquidity a b amount : Dec} (h : amount0 liquidity a b = .ok amount) :
    amount.raw.natAbs / Dec.scale = units0 liquidity.raw.natAbs a.raw b.raw := by
  rw [amount0] at h
  obtain ⟨w, hw, h⟩ := bind_eq_ok_iff.1 h
  obtain ⟨p, hp, h⟩ := bind_eq_ok_iff.1 h
  obtain ⟨m, hm, h⟩ := bind_eq_ok_iff.1 h
  rw [(Dec.natAbs_quo h).2, Dec.natAbs_mul hm, natAbs_width hw, natAbs_product hp]
  rfl

/-- **The whole units of the second token** in an amount that liquidity takes. -/
theorem natAbs_amount1 {liquidity a b amount : Dec} (h : amount1 liquidity a b = .ok amount) :
    amount.raw.natAbs / Dec.scale = units1 liquidity.raw.natAbs a.raw b.raw := by
  rw [amount1] at h
  obtain ⟨w, hw, h⟩ := bind_eq_ok_iff.1 h
  rw [Dec.natAbs_mul h, natAbs_width hw]
  rfl

/-- No liquidity takes nothing of the first token. -/
@[simp] theorem units0_zero (x y : Int) : units0 0 x y = 0 := by
  rw [units0, spread, Nat.zero_mul, quotient_zero, Nat.zero_mul, quotient_zero, Nat.zero_div]

/-- No liquidity takes nothing of the second token. -/
@[simp] theorem units1_zero (x y : Int) : units1 0 x y = 0 := by
  rw [units1, spread, Nat.zero_mul, quotient_zero, Nat.zero_div]

/-- Without width there is no spread. -/
@[simp] theorem spread_self (liquidity : Nat) (x : Int) : spread liquidity x x = 0 := by
  rw [spread, width_self, Nat.mul_zero, quotient_zero]

/-- Between a root and itself liquidity takes nothing of the first token. -/
@[simp] theorem units0_self (liquidity : Nat) (x : Int) : units0 liquidity x x = 0 := by
  rw [units0, spread_self, Nat.zero_mul, quotient_zero, Nat.zero_div]

/-- Between a root and itself liquidity takes nothing of the second token. -/
@[simp] theorem units1_self (liquidity : Nat) (x : Int) : units1 liquidity x x = 0 := by
  rw [units1, spread_self, Nat.zero_div]

/-- More liquidity has no less spread. -/
theorem spread_mono {l l' : Nat} (h : l ≤ l') (x y : Int) : spread l x y ≤ spread l' x y :=
  halfEven_mono (Nat.mul_le_mul_right _ h) _

/-- More liquidity takes no less of the first token. -/
theorem units0_mono {l l' : Nat} (h : l ≤ l') (x y : Int) : units0 l x y ≤ units0 l' x y :=
  Nat.div_le_div_right (halfEven_mono (Nat.mul_le_mul_right _ (spread_mono h x y)) _)

/-- More liquidity takes no less of the second token. -/
theorem units1_mono {l l' : Nat} (h : l ≤ l') (x y : Int) : units1 l x y ≤ units1 l' x y :=
  Nat.div_le_div_right (spread_mono h x y)

/-! ### Bounds -/

/-- The scale is even, so there can be ties. -/
theorem two_dvd_scale : 2 ∣ Dec.scale := by decide

/-- The spread is within one half of the exact product. -/
theorem spread_bounds (l : Nat) (x y : Int) :
    2 * (Dec.scale * spread l x y) ≤ 2 * (l * width x y) + Dec.scale ∧
      2 * (l * width x y) ≤ 2 * (Dec.scale * spread l x y) + Dec.scale :=
  halfEven_bounds _ Dec.scale_pos

/-- The units of the first token, between two multiples of the product. -/
theorem units0_bounds (l : Nat) {x y : Int} (hpos : 0 < product x y) :
    2 * (Dec.scale * (product x y * units0 l x y)) ≤ 2 * (Dec.scale * spread l x y) + product x y ∧
      2 * (Dec.scale * spread l x y) + product x y <
        2 * (Dec.scale * (product x y * units0 l x y)) + 2 * (Dec.scale * product x y) := by
  have hdiv : units0 l x y =
      (2 * (spread l x y * Dec.scale) + product x y) / (2 * product x y * Dec.scale) :=
    halfEven_div _ hpos two_dvd_scale
  have hlow := Nat.mul_div_le (2 * (spread l x y * Dec.scale) + product x y)
    (2 * product x y * Dec.scale)
  have hhigh := Nat.lt_mul_div_succ (2 * (spread l x y * Dec.scale) + product x y)
    (Nat.mul_pos (Nat.mul_pos Nat.two_pos hpos) Dec.scale_pos)
  rw [← hdiv] at hlow hhigh
  constructor
  · calc 2 * (Dec.scale * (product x y * units0 l x y))
        = 2 * product x y * Dec.scale * units0 l x y := by ring
      _ ≤ 2 * (spread l x y * Dec.scale) + product x y := hlow
      _ = 2 * (Dec.scale * spread l x y) + product x y := by ring
  · calc 2 * (Dec.scale * spread l x y) + product x y
        = 2 * (spread l x y * Dec.scale) + product x y := by ring
      _ < 2 * product x y * Dec.scale * (units0 l x y + 1) := hhigh
      _ = 2 * (Dec.scale * (product x y * units0 l x y)) + 2 * (Dec.scale * product x y) := by ring

/-- The units of the second token, between two whole numbers. -/
theorem units1_bounds (l : Nat) (x y : Int) :
    2 * (Dec.scale * (Dec.scale * units1 l x y)) ≤ 2 * (l * width x y) + Dec.scale ∧
      2 * (l * width x y) + Dec.scale <
        2 * (Dec.scale * (Dec.scale * units1 l x y)) + 2 * (Dec.scale * Dec.scale) := by
  have hdiv : units1 l x y =
      (2 * (l * width x y) + Dec.scale) / (2 * Dec.scale * Dec.scale) :=
    halfEven_div _ Dec.scale_pos two_dvd_scale
  have hlow := Nat.mul_div_le (2 * (l * width x y) + Dec.scale) (2 * Dec.scale * Dec.scale)
  have hhigh := Nat.lt_mul_div_succ (2 * (l * width x y) + Dec.scale)
    (Nat.mul_pos (Nat.mul_pos Nat.two_pos Dec.scale_pos) Dec.scale_pos)
  rw [← hdiv] at hlow hhigh
  rw [Dec.scale] at hlow hhigh ⊢
  omega

/-- The units of the first token stay within an offer exactly when, times the product, the spread
falls short of one unit more, by at least half of a last digit. -/
theorem units0_le_iff {x y : Int} (hpos : 0 < product x y) (l n : Nat) :
    units0 l x y ≤ n ↔
      2 * (Dec.scale * spread l x y) + product x y < 2 * (Dec.scale * (product x y * (n + 1))) := by
  obtain ⟨hlow, hhigh⟩ := units0_bounds l hpos
  constructor
  · intro hle
    have hstep : product x y * (units0 l x y + 1) ≤ product x y * (n + 1) :=
      Nat.mul_le_mul_left _ (Nat.succ_le_succ hle)
    rw [Nat.mul_add, Nat.mul_one] at hstep
    rw [Dec.scale] at hhigh ⊢
    omega
  · intro hlt
    by_contra hgt
    have hstep : product x y * (n + 1) ≤ product x y * units0 l x y :=
      Nat.mul_le_mul_left _ (Nat.not_le.1 hgt)
    rw [Dec.scale] at hlow hlt
    omega

/-- The units of the second token stay within an offer exactly when the liquidity times the width
falls short of one unit more, by at least half of a last digit. -/
theorem units1_le_iff (l : Nat) (x y : Int) (n : Nat) :
    units1 l x y ≤ n ↔
      2 * (l * width x y) + Dec.scale < 2 * (Dec.scale * (Dec.scale * (n + 1))) := by
  obtain ⟨hlow, hhigh⟩ := units1_bounds l x y
  rw [Dec.scale] at hlow hhigh ⊢
  omega

/-- Without a product there are no units. -/
theorem units0_of_product_eq_zero {x y : Int} (h : product x y = 0) (l : Nat) :
    units0 l x y = 0 := by
  have hle := quotient_le_down_succ .halfEven (spread l x y * Dec.scale) 0
  rw [Nat.div_zero] at hle
  rw [units0, h]
  refine Nat.div_eq_of_lt (Nat.lt_of_le_of_lt hle ?_)
  decide

/-! ### The liquidity that an amount backs -/

/-- **The liquidity that the first token backs**, as a rounded quotient. -/
theorem natAbs_ofAmount0 {amount : Amount} {a b liquidity : Dec}
    (h : ofAmount0 amount a b = .ok liquidity) :
    0 < width a.raw b.raw ∧ liquidity.raw.natAbs =
      halfEven.quotient (amount.toNat * product a.raw b.raw * Dec.scale) (width a.raw b.raw) := by
  rw [ofAmount0] at h
  obtain ⟨p, hp, h⟩ := bind_eq_ok_iff.1 h
  obtain ⟨w, hw, h⟩ := bind_eq_ok_iff.1 h
  obtain ⟨m, hm, h⟩ := bind_eq_ok_iff.1 h
  obtain ⟨hne, hquo⟩ := Dec.natAbs_quo h
  have hmul : m.raw.natAbs = amount.toNat * product a.raw b.raw := by
    rw [Dec.natAbs_mul hm, Dec.natAbs_ofAmount, natAbs_product hp, Nat.mul_right_comm]
    exact quotient_mul _ Dec.scale_pos _
  rw [← natAbs_width hw]
  exact ⟨Int.natAbs_pos.2 hne, by rw [hquo, hmul]⟩

/-- **The liquidity that the second token backs**, as a rounded quotient. -/
theorem natAbs_ofAmount1 {amount : Amount} {a b liquidity : Dec}
    (h : ofAmount1 amount a b = .ok liquidity) :
    0 < width a.raw b.raw ∧ liquidity.raw.natAbs =
      halfEven.quotient (amount.toNat * Dec.scale * Dec.scale) (width a.raw b.raw) := by
  rw [ofAmount1] at h
  obtain ⟨w, hw, h⟩ := bind_eq_ok_iff.1 h
  obtain ⟨hne, hquo⟩ := Dec.natAbs_quo h
  rw [← natAbs_width hw]
  exact ⟨Int.natAbs_pos.2 hne, by rw [hquo, Dec.natAbs_ofAmount]⟩

/-- Square roots that are not too small are close together, as measured by their product. -/
theorem width_lt_of_two_le {x y : Int} (hx : 2 ≤ x) (hy : 2 ≤ y) (hpos : 0 < product x y) :
    width x y + Dec.scale + product x y < 2 * (Dec.scale * product x y) := by
  have hround := (halfEven_bounds (x.natAbs * y.natAbs) Dec.scale_pos).2
  have hdouble : 2 * y.natAbs ≤ x.natAbs * y.natAbs := Nat.mul_le_mul_right _ (by omega)
  have hdouble' : x.natAbs * 2 ≤ x.natAbs * y.natAbs := Nat.mul_le_mul_left _ (by omega)
  change 2 * (x.natAbs * y.natAbs) ≤ 2 * (Dec.scale * product x y) + Dec.scale at hround
  rw [width]
  rw [Dec.scale] at hround ⊢
  omega

/-- **Liquidity that units of the first token back** takes no more than these units, over every
range that does not begin at the smallest square roots. -/
theorem units0_le_of_backed {amount : Amount} {a b backed : Dec}
    (h : ofAmount0 amount a b = .ok backed) {l : Nat} (hl : l ≤ backed.raw.natAbs)
    (ha : 2 ≤ a.raw) (hb : 2 ≤ b.raw) : units0 l a.raw b.raw ≤ amount.toNat := by
  obtain ⟨hwidth, hbacked⟩ := natAbs_ofAmount0 h
  rcases Nat.eq_zero_or_pos (product a.raw b.raw) with hzero | hpos
  · rw [units0_of_product_eq_zero hzero]
    exact Nat.zero_le _
  have hclose := width_lt_of_two_le ha hb hpos
  have hround := (halfEven_bounds (amount.toNat * product a.raw b.raw * Dec.scale) hwidth).1
  rw [← hbacked] at hround
  have hspread := (spread_bounds l a.raw b.raw).1
  have hless : l * width a.raw b.raw ≤ width a.raw b.raw * backed.raw.natAbs := by
    rw [Nat.mul_comm]
    exact Nat.mul_le_mul_left _ hl
  rw [units0_le_iff hpos, Nat.mul_add, Nat.mul_one, Nat.mul_comm (product a.raw b.raw)]
  rw [Dec.scale] at hclose hround hspread ⊢
  omega

/-- **Liquidity that units of the second token back** takes no more than these units, over every
range that is not too wide. -/
theorem units1_le_of_backed {amount : Amount} {a b backed : Dec}
    (h : ofAmount1 amount a b = .ok backed) {l : Nat} (hl : l ≤ backed.raw.natAbs)
    (hnarrow : width a.raw b.raw + Dec.scale < 2 * (Dec.scale * Dec.scale)) :
    units1 l a.raw b.raw ≤ amount.toNat := by
  obtain ⟨hwidth, hbacked⟩ := natAbs_ofAmount1 h
  have hround := (halfEven_bounds (amount.toNat * Dec.scale * Dec.scale) hwidth).1
  rw [← hbacked] at hround
  have hless : l * width a.raw b.raw ≤ width a.raw b.raw * backed.raw.natAbs := by
    rw [Nat.mul_comm]
    exact Nat.mul_le_mul_left _ hl
  rw [units1_le_iff]
  rw [Dec.scale] at hnarrow hround ⊢
  omega

/-- The liquidity that two amounts back: below the range the first, above it the second, and inside
it no more than either. -/
theorem ofAmounts_cases {sqrtPrice a b liquidity : Dec} {n0 n1 : Amount}
    (h : ofAmounts sqrtPrice a b n0 n1 = .ok liquidity) :
    (sqrtPrice.raw ≤ (ordered a b).1.raw ∧
        ofAmount0 n0 (ordered a b).1 (ordered a b).2 = .ok liquidity) ∨
      ((ordered a b).1.raw < sqrtPrice.raw ∧ sqrtPrice.raw ≤ (ordered a b).2.raw ∧
        ∃ from0 from1, ofAmount0 n0 sqrtPrice (ordered a b).2 = .ok from0 ∧
          ofAmount1 n1 sqrtPrice (ordered a b).1 = .ok from1 ∧
          liquidity.raw ≤ from0.raw ∧ liquidity.raw ≤ from1.raw) ∨
      ((ordered a b).2.raw < sqrtPrice.raw ∧
        ofAmount1 n1 (ordered a b).2 (ordered a b).1 = .ok liquidity) := by
  rw [ofAmounts] at h
  simp only at h
  split at h
  next hbelow => exact .inl ⟨hbelow, h⟩
  next hbelow =>
    split at h
    next hin =>
      obtain ⟨from0, h0, h⟩ := bind_eq_ok_iff.1 h
      obtain ⟨from1, h1, h⟩ := bind_eq_ok_iff.1 h
      cases h
      have hmin : (min from0 from1).raw ≤ from0.raw ∧ (min from0 from1).raw ≤ from1.raw := by
        change (if from0.raw ≤ from1.raw then from0 else from1).raw ≤ _ ∧
          (if from0.raw ≤ from1.raw then from0 else from1).raw ≤ _
        split <;> omega
      exact .inr (.inl ⟨Int.not_le.1 hbelow, hin, from0, from1, h0, h1, hmin⟩)
    next hin => exact .inr (.inr ⟨Int.not_le.1 hin, h⟩)

/-! ### Merging and splitting -/

/-- The spread of a sum is off by one at most. -/
theorem spread_merge (l l' : Nat) (x y : Int) :
    spread (l + l') x y ≤ spread l x y + spread l' x y + 1 ∧
      spread l x y + spread l' x y ≤ spread (l + l') x y + 1 := by
  have h := spread_bounds l x y
  have h' := spread_bounds l' x y
  have hsum := spread_bounds (l + l') x y
  rw [Nat.add_mul] at hsum
  rw [Dec.scale] at h h' hsum
  omega

/-- **The units of the first token that a sum takes** are those of its parts, but for one. -/
theorem units0_merge (l l' : Nat) (x y : Int) :
    units0 (l + l') x y ≤ units0 l x y + units0 l' x y + 1 ∧
      units0 l x y + units0 l' x y ≤ units0 (l + l') x y + 1 := by
  rcases Nat.eq_zero_or_pos (product x y) with hzero | hpos
  · simp only [units0_of_product_eq_zero hzero]
    omega
  have hspread := spread_merge l l' x y
  have h := units0_bounds l hpos
  have h' := units0_bounds l' hpos
  have hsum := units0_bounds (l + l') hpos
  generalize units0 l x y = u, units0 l' x y = u', units0 (l + l') x y = v at h h' hsum ⊢
  generalize spread l x y = m, spread l' x y = m', spread (l + l') x y = n at hspread h h' hsum
  generalize product x y = p at hpos h h' hsum
  rw [Dec.scale] at h h' hsum
  -- a difference of two units would be one of two products
  constructor
  · by_contra hgap
    have hstep : p * (u + u' + 2) ≤ p * v := Nat.mul_le_mul_left p (by omega)
    rw [Nat.mul_add, Nat.mul_add] at hstep
    have hm : m + 1 ≤ p * u + p := by omega
    have hm' : m' + 1 ≤ p * u' + p := by omega
    omega
  · by_contra hgap
    have hstep : p * (v + 2) ≤ p * (u + u') := Nat.mul_le_mul_left p (by omega)
    rw [Nat.mul_add, Nat.mul_add] at hstep
    by_cases hone : p = 1
    · subst hone
      omega
    · omega

/-- **The units of the second token that a sum takes** are those of its parts, but for one. -/
theorem units1_merge (l l' : Nat) (x y : Int) :
    units1 (l + l') x y ≤ units1 l x y + units1 l' x y + 1 ∧
      units1 l x y + units1 l' x y ≤ units1 (l + l') x y + 1 := by
  have h := units1_bounds l x y
  have h' := units1_bounds l' x y
  have hsum := units1_bounds (l + l') x y
  rw [Nat.add_mul] at hsum
  rw [Dec.scale] at h h' hsum
  omega

end RangeLedger.Liquidity
