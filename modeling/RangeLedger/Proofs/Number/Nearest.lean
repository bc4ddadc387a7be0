import RangeLedger.Dec.Arithmetic
import Mathlib

/-!
# Rounding to the nearest

Products and quotients of decimals are rounded to the nearest decimal, ties to the even one. For a
bound it is enough that the rounded quotient is no further than one half from the exact one. Where
a rounded decimal is then truncated to whole units, ties play no part at all: a tie that goes to the
even neighbour never reaches a whole unit, so the outcome is a single division.

The direction of rounding is judged on the magnitude, and so all of this is about natural numbers:
`Dec.mul` and `Dec.quo` are told here by the magnitudes of their raw integers.

## Main results

* `Rounding.halfEven_bounds`: the rounded quotient is within one half of the exact one.
* `Rounding.halfEven_bounds_of_finer`: the same against a finer quotient that is rounded down.
* `Rounding.halfEven_div`: rounding and then truncating to a multiple is one division.
* `Dec.natAbs_mul`, `Dec.natAbs_quo`: products and quotients by magnitude.
-/

namespace RangeLedger

namespace Rounding

/-- The magnitude of a quotient is rounded as that of its magnitudes. -/
theorem natAbs_signedQuotient (mode : Rounding) (n : Int) {d : Int} (hd : d ≠ 0) :
    (mode.signedQuotient n d).natAbs = mode.quotient n.natAbs d.natAbs := by
  rw [signedQuotient, Int.natAbs_mul, Int.natAbs_mul, Int.natAbs_sign_of_ne_zero hd, Nat.mul_one,
    Int.natAbs_natCast]
  by_cases hn : n = 0
  · rw [hn, Int.natAbs_zero, quotient_zero, Nat.mul_zero]
  · rw [Int.natAbs_sign_of_ne_zero hn, Nat.one_mul]

/-- A quotient without a sign has none in any mode. -/
theorem signedQuotient_nonneg (mode : Rounding) {n d : Int} (hn : 0 ≤ n) (hd : 0 ≤ d) :
    0 ≤ mode.signedQuotient n d :=
  Int.mul_nonneg (Int.mul_nonneg (Int.sign_nonneg_iff.2 hn) (Int.sign_nonneg_iff.2 hd))
    (Int.natCast_nonneg _)

/-- **A rounded quotient is within one half of the exact one.** -/
theorem halfEven_bounds (n : Nat) {d : Nat} (hd : 0 < d) :
    2 * (d * halfEven.quotient n d) ≤ 2 * n + d ∧
      2 * n ≤ 2 * (d * halfEven.quotient n d) + d := by
  have hsplit := Nat.div_add_mod n d
  have hlt := Nat.mod_lt n hd
  simp only [quotient]
  split
  next hup =>
    rw [Nat.mul_add, Nat.mul_one]
    omega
  next hdown => omega

/-- The same of rational numbers. -/
theorem abs_halfEven_sub_le (n : Nat) {d : Nat} (hd : 0 < d) :
    |(halfEven.quotient n d : ℚ) - n / d| ≤ 1 / 2 := by
  obtain ⟨hlow, hhigh⟩ := halfEven_bounds n hd
  have hpos : (0 : ℚ) < d := by exact_mod_cast hd
  have hlow : (2 : ℚ) * (d * halfEven.quotient n d) ≤ 2 * n + d := by exact_mod_cast hlow
  have hhigh : (2 : ℚ) * n ≤ 2 * (d * halfEven.quotient n d) + d := by exact_mod_cast hhigh
  rw [abs_le, neg_le_sub_iff_le_add, sub_le_iff_le_add, div_le_iff₀ hpos, ← sub_le_iff_le_add',
    le_div_iff₀ hpos]
  constructor <;> linarith

/-- **A rounded quotient, against the quotient at a finer scale that is rounded down**: they are
within one half of the coarser unit. -/
theorem halfEven_bounds_of_finer (n : Nat) {d k : Nat} (hd : 0 < d) (hk : 2 ∣ k) :
    k * (2 * halfEven.quotient n d) ≤ 2 * (k * n / d) + k ∧
      2 * (k * n / d) ≤ k * (2 * halfEven.quotient n d) + k := by
  obtain ⟨hlow, hhigh⟩ := halfEven_bounds n hd
  generalize halfEven.quotient n d = q at hlow hhigh ⊢
  obtain ⟨half, rfl⟩ := hk
  have hfloor := Nat.div_mul_le_self (2 * half * n) d
  have hceil := Nat.lt_div_mul_add (a := 2 * half * n) hd
  generalize 2 * half * n / d = f at hfloor hceil ⊢
  constructor
  · -- an even number is below an odd bound
    have hscaled := Nat.mul_le_mul_left half hlow
    have hlt : d * (2 * half * q) < d * (f + 1 + half) := by linarith
    have hlt := Nat.lt_of_mul_lt_mul_left hlt
    have hsplit : 2 * half * (2 * q) = 2 * (2 * half * q) := by ring
    omega
  · have hscaled := Nat.mul_le_mul_left (2 * half) hhigh
    refine Nat.le_of_mul_le_mul_left ?_ hd
    linarith

/-- More is rounded to no less. -/
theorem halfEven_mono {n n' : Nat} (h : n ≤ n') (d : Nat) :
    halfEven.quotient n d ≤ halfEven.quotient n' d := by
  rcases Nat.eq_or_lt_of_le h with rfl | hlt
  · exact Nat.le_refl _
  rcases Nat.eq_zero_or_pos d with rfl | hd
  · have hup : 0 < 2 * n' := by omega
    simp only [quotient, Nat.div_zero, Nat.mod_zero, hup, true_or, if_true]
    split <;> omega
  · by_contra hgt
    have hbounds := (halfEven_bounds n hd).1
    have hbounds' := (halfEven_bounds n' hd).2
    have hstep := Nat.mul_le_mul_left d (Nat.succ_le_of_lt (Nat.not_le.1 hgt))
    rw [Nat.succ_eq_add_one, Nat.mul_add, Nat.mul_one] at hstep
    omega

/-- What is divided by more is rounded to no more. -/
theorem halfEven_anti (n : Nat) {d d' : Nat} (hd : 0 < d) (h : d ≤ d') :
    halfEven.quotient n d' ≤ halfEven.quotient n d := by
  rcases Nat.eq_or_lt_of_le h with rfl | hlt
  · exact Nat.le_refl _
  by_contra hgt
  have hhigh := (halfEven_bounds n hd).2
  have hlow := (halfEven_bounds n (Nat.lt_trans hd hlt)).1
  have hwider := Nat.mul_le_mul_right (halfEven.quotient n d) h
  have hstep := Nat.mul_le_mul_left d' (Nat.succ_le_of_lt (Nat.not_le.1 hgt))
  rw [Nat.succ_eq_add_one, Nat.mul_add, Nat.mul_one] at hstep
  omega

/-- Rounding to the nearest is rounding a tie up, or else a tie that went to an even number. -/
theorem halfEven_cases (n : Nat) {d : Nat} (hd : 0 < d) :
    halfEven.quotient n d = (2 * n + d) / (2 * d) ∨
      (halfEven.quotient n d + 1 = (2 * n + d) / (2 * d) ∧ halfEven.quotient n d % 2 = 0) := by
  have hsplit := Nat.div_add_mod n d
  have hlt := Nat.mod_lt n hd
  have hmul (q : Nat) : q * (2 * d) = 2 * (d * q) := by ring
  have hdown (h : 2 * (n % d) < d) : (2 * n + d) / (2 * d) = n / d := by
    refine Nat.div_eq_of_lt_le ?_ ?_
    · rw [hmul]
      omega
    · rw [hmul, Nat.mul_add]
      omega
  have hup (h : d ≤ 2 * (n % d)) : (2 * n + d) / (2 * d) = n / d + 1 := by
    refine Nat.div_eq_of_lt_le ?_ ?_
    · rw [hmul, Nat.mul_add]
      omega
    · rw [hmul]
      simp only [Nat.mul_add]
      omega
  simp only [quotient]
  split
  next h => exact .inl (hup (by omega)).symm
  next h =>
    rcases Nat.lt_trichotomy (2 * (n % d)) d with hr | hr | hr
    · exact .inl (hdown hr).symm
    · exact .inr ⟨(hup (Nat.le_of_eq hr.symm)).symm, by omega⟩
    · omega

/-- **Rounding and then truncating is one division**, when the truncation is to multiples of an even
number: a tie that went to the even side would not have been a multiple on the other. -/
theorem halfEven_div (n : Nat) {d k : Nat} (hd : 0 < d) (hk : 2 ∣ k) :
    halfEven.quotient n d / k = (2 * n + d) / (2 * d * k) := by
  rw [← Nat.div_div_eq_div_mul]
  obtain hsame | ⟨hsucc, heven⟩ := halfEven_cases n hd
  · rw [hsame]
  · have hnot : ¬k ∣ halfEven.quotient n d + 1 := by
      intro hdvd
      have htwo := Nat.dvd_trans hk hdvd
      omega
    rw [← hsucc, Nat.succ_div, if_neg hnot, Nat.add_zero]

end Rounding

/-- Amounts are ordered as natural numbers. -/
theorem Amount.toNat_le_iff {m n : Amount} : m.toNat ≤ n.toNat ↔ m ≤ n := by
  have hm := m.lo_le
  have hn := n.lo_le
  change m.val.toNat ≤ n.val.toNat ↔ m.val ≤ n.val
  omega

/-- Amounts that are a unit apart at most as natural numbers are so as integers. -/
theorem Amount.sub_one_le_of_toNat {m n : Amount} (h : n.toNat ≤ m.toNat + 1) :
    n.val - 1 ≤ m.val := by
  have hm := m.lo_le
  have hn := n.lo_le
  change n.val.toNat ≤ m.val.toNat + 1 at h
  omega

/-! ### Decimals by magnitude -/

namespace Dec

variable {a b c : Dec}

/-- The scale is positive. -/
theorem scale_pos : 0 < scale := by decide

/-- The magnitude of a product is the rounded product of the magnitudes. -/
theorem natAbs_mul (h : a.mul b = .ok c) :
    c.raw.natAbs = Rounding.halfEven.quotient (a.raw.natAbs * b.raw.natAbs) scale := by
  rw [mul, mulWith] at h
  split at h
  next =>
    have hscale : (scale : Int) ≠ 0 := by decide
    rw [ofRaw_eq_ok_iff] at h
    rw [h, Rounding.natAbs_signedQuotient _ _ hscale, Int.natAbs_mul, Int.natAbs_natCast]
  next => cases h

/-- The magnitude of a quotient is the rounded quotient of the magnitudes. -/
theorem natAbs_quo (h : a.quo b = .ok c) :
    b.raw ≠ 0 ∧
      c.raw.natAbs = Rounding.halfEven.quotient (a.raw.natAbs * scale) b.raw.natAbs := by
  rw [quo, quoWith] at h
  split at h
  next => cases h
  next hb =>
    split at h
    next =>
      rw [ofRaw_eq_ok_iff] at h
      refine ⟨hb, ?_⟩
      rw [h, Rounding.natAbs_signedQuotient _ _ hb, Int.natAbs_mul, Int.natAbs_natCast]
    next => cases h

/-- A quotient of decimals that are not negative is not negative. -/
theorem raw_quo_of_nonneg (ha : 0 ≤ a.raw) (hb : 0 ≤ b.raw) (h : a.quo b = .ok c) :
    c.raw = Rounding.halfEven.quotient (a.raw.natAbs * scale) b.raw.natAbs := by
  rw [quo, quoWith] at h
  split at h
  next => cases h
  next hne =>
    split at h
    next =>
      rw [ofRaw_eq_ok_iff, Rounding.signedQuotient, Int.natAbs_mul, Int.natAbs_natCast] at h
      rw [h, Int.sign_eq_one_of_pos (by omega : 0 < b.raw), Int.mul_one]
      rcases Int.lt_or_eq_of_le ha with hpos | hzero
      · have hscale : (0 : Int) < scale := by decide
        rw [Int.sign_eq_one_of_pos (Int.mul_pos hpos hscale), Int.one_mul]
      · rw [← hzero]
        simp
    next => cases h

/-- The decimal of an amount is not negative. -/
theorem raw_ofAmount_nonneg (n : Amount) : 0 ≤ (ofAmount n).raw :=
  Int.mul_nonneg n.lo_le (by decide)

/-- A product of what is not negative is not negative. -/
theorem raw_mul_nonneg (ha : 0 ≤ a.raw) (hb : 0 ≤ b.raw) (h : a.mul b = .ok c) : 0 ≤ c.raw := by
  rw [mul, mulWith] at h
  split at h
  next =>
    rw [ofRaw_eq_ok_iff] at h
    rw [h]
    exact Rounding.signedQuotient_nonneg _ (Int.mul_nonneg ha hb) (Int.natCast_nonneg _)
  next => cases h

/-- A quotient of what is not negative is not negative. -/
theorem raw_quo_nonneg (ha : 0 ≤ a.raw) (hb : 0 ≤ b.raw) (h : a.quo b = .ok c) : 0 ≤ c.raw := by
  rw [raw_quo_of_nonneg ha hb h]
  exact Int.natCast_nonneg _

/-- The magnitude of a difference is that of the raw one. -/
theorem natAbs_sub (h : a.sub b = .ok c) : c.raw.natAbs = (a.raw - b.raw).natAbs := by
  rw [sub_eq_ok_iff.1 h]

/-- The decimal of an amount is the amount, scaled. -/
theorem natAbs_ofAmount (n : Amount) : (ofAmount n).raw.natAbs = n.toNat * scale := by
  have hle := n.lo_le
  change (n.val * 1_000_000_000_000_000_000).natAbs = n.val.toNat * scale
  rw [scale]
  omega

/-- What can be truncated is not negative, and its whole units are those of its magnitude. -/
theorem toNat_truncate {n : Amount} (h : a.truncate = .ok n) :
    n.toNat = a.raw.natAbs / scale := by
  rw [truncate] at h
  split at h
  next => cases h
  next hneg =>
    split at h
    next m hm =>
      cases h
      have hval := Bounded.ofInt?_eq_some_iff.1 hm
      rw [Bounded.toNat, hval]
      rw [scale]
      omega
    next => cases h

/-- A decimal that is not negative has whole units, if they are no more than some amount. -/
theorem exists_truncate {n : Amount} (ha : 0 ≤ a.raw) (h : a.raw.natAbs / scale ≤ n.toNat) :
    ∃ m, a.truncate = .ok m ∧ m.toNat = a.raw.natAbs / scale := by
  have hlo := n.lo_le
  have hhi := n.le_hi
  change a.raw.natAbs / scale ≤ n.val.toNat at h
  have hunits : a.raw / scale = ((a.raw.natAbs / scale : Nat) : Int) := by
    rw [scale]
    omega
  generalize a.raw.natAbs / scale = units at h hunits ⊢
  have hm : Bounded.ofInt? (a.raw / scale) = some (⟨units, by omega, by omega⟩ : Amount) :=
    Bounded.ofInt?_eq_some_iff.2 hunits.symm
  have htruncate : a.truncate = .ok ⟨units, by omega, by omega⟩ := by
    rw [truncate, if_neg (Int.not_lt.2 ha), hm]
  exact ⟨_, htruncate, Int.toNat_natCast units⟩

/-- Truncating a magnitude drops its fraction. -/
theorem toNat_truncate_abs {n : Amount} (h : a.abs.truncate = .ok n) :
    n.toNat = a.raw.natAbs / scale := by
  have htruncate := toNat_truncate h
  by_cases hmin : a.raw = -limit
  · -- the least decimal has no magnitude in range: what is kept is negative and not truncated
    have habs : a.abs = a := by
      refine Dec.ext ?_
      rw [abs, hmin]
      rfl
    rw [habs] at htruncate
    exact htruncate
  · have hlow := a.neg_limit_le
    have hhigh := a.lt_limit
    have habs : a.abs.raw = a.raw.natAbs := raw_wrap (by omega) (by omega)
    rw [habs, Int.natAbs_natCast] at htruncate
    exact htruncate

end Dec

end RangeLedger
