import RangeLedger.Proofs.Number.Nearest

/-!
# Rounding is exact

A rounded quotient is found by an integer division and a look at the remainder, and its sign is put
on afterwards. Here it is compared with what it stands for, the rational number itself made whole
(`Rounding.round`): toward zero, away from zero, or to the nearest whole number with ties to the
even one. The two agree for all integers, of either sign. Rounding a rational number is odd, so the
sign may as well be put on afterwards (`round_neg`); and on natural numbers the remainder tells on
which side of one half the rest is.

The division is done on words of 256 bits, and the look at the remainder takes a difference and a
sum of words, which would wrap around if they left the word. They do not: the remainder is less
than the divisor, and a quotient that is not whole is at most half of the word.

## Main results

* `Rounding.signedQuotient_eq_round`: a rounded quotient is the rational quotient, rounded.
* `Rounding.not_wraps`, `Rounding.toNat_wordQuotient`: on words nothing wraps around, and the
  outcome is the same.
-/

namespace RangeLedger

namespace Rounding

variable {x : ℚ} {m n : Int}

/-! ### Rational numbers made whole -/

/-- A rational number, made whole. -/
def round (mode : Rounding) (x : ℚ) : Int :=
  match mode with
  | .down => if x < 0 then ⌈x⌉ else ⌊x⌋
  | .halfEven =>
    if Int.fract x < 1 / 2 then ⌊x⌋
    else if 1 / 2 < Int.fract x then ⌊x⌋ + 1
    else if Even ⌊x⌋ then ⌊x⌋ else ⌊x⌋ + 1
  | .up => if x < 0 then ⌊x⌋ else ⌈x⌉

/-- A whole number that is nearest to a rational number, and even if another one is as near. -/
def IsNearest (x : ℚ) (n : Int) : Prop :=
  |x - n| < 1 / 2 ∨ (|x - n| = 1 / 2 ∧ Even n)

/-- Nearest integers are nearest on the other side of zero too. -/
theorem IsNearest.neg (h : IsNearest x n) : IsNearest (-x) (-n) := by
  have habs : |-x - ((-n : Int) : ℚ)| = |x - n| := by
    rw [Int.cast_neg, ← abs_neg]
    congr 1
    ring
  rw [IsNearest, habs, even_neg]
  exact h

/-- A whole number above another one is not as near, unless just one of them is even. -/
theorem IsNearest.le (hm : IsNearest x m) (hn : IsNearest x n) : n ≤ m := by
  by_contra hlt
  have hstep : (m : ℚ) + 1 ≤ n := by exact_mod_cast Int.not_le.1 hlt
  have hclose (k : Int) (h : IsNearest x k) : |x - k| ≤ 1 / 2 := h.elim le_of_lt fun h => h.1.le
  have habove := (abs_le.1 (hclose m hm)).2
  have hbelow := (abs_le.1 (hclose n hn)).1
  -- so both are one half away, and they are neighbours
  have htie : |x - m| = 1 / 2 := by
    rw [abs_of_nonneg] <;> linarith
  have htie' : |x - n| = 1 / 2 := by
    rw [abs_of_nonpos] <;> linarith
  have heven := (hm.resolve_left (by rw [htie]; exact lt_irrefl _)).2
  have heven' := (hn.resolve_left (by rw [htie']; exact lt_irrefl _)).2
  have hnext : (n : ℚ) = m + 1 := by linarith
  have hnext : n = m + 1 := by exact_mod_cast hnext
  rw [hnext, Int.even_add_one] at heven'
  exact heven' heven

/-- There is one nearest whole number. -/
theorem IsNearest.unique (hm : IsNearest x m) (hn : IsNearest x n) : m = n :=
  Int.le_antisymm (hn.le hm) (hm.le hn)

/-- Rounding half to even answers a nearest integer, the even one if there are two. -/
theorem isNearest_round (x : ℚ) : IsNearest x (halfEven.round x) := by
  have hnonneg := Int.fract_nonneg x
  have hlt := Int.fract_lt_one x
  have hfloor : |x - ⌊x⌋| = Int.fract x := abs_of_nonneg hnonneg
  have hnext : |x - ((⌊x⌋ + 1 : Int) : ℚ)| = 1 - Int.fract x := by
    rw [Int.cast_add, Int.cast_one, ← sub_sub, Int.self_sub_floor, abs_of_nonpos (by linarith)]
    ring
  simp only [round]
  split
  next hless =>
    rw [IsNearest, hfloor]
    exact .inl hless
  next hless =>
    split
    next hmore =>
      rw [IsNearest, hnext]
      exact .inl (by linarith)
    next hmore =>
      have htie : Int.fract x = 1 / 2 := le_antisymm (not_lt.1 hmore) (not_lt.1 hless)
      split
      next heven =>
        rw [IsNearest, hfloor]
        exact .inr ⟨htie, heven⟩
      next hodd =>
        rw [IsNearest, hnext, Int.even_add_one]
        exact .inr ⟨by linarith, hodd⟩

/-- **Rounding is odd**: the sign may be put on afterwards. -/
theorem round_neg (mode : Rounding) (x : ℚ) : mode.round (-x) = -mode.round x := by
  cases mode with
  | halfEven => exact (isNearest_round (-x)).unique (isNearest_round x).neg
  | down | up =>
    simp only [round, Int.floor_neg, Int.ceil_neg, neg_lt_zero]
    rcases lt_trichotomy x 0 with hneg | rfl | hpos
    · rw [if_neg (not_lt.2 hneg.le), if_pos hneg]
    · simp
    · rw [if_pos hpos, if_neg (not_lt.2 hpos.le)]

/-! ### Quotients -/

/-- What a quotient of natural numbers leaves is the remainder over the divisor. -/
theorem natCast_div_eq (n : Nat) {d : Nat} (hd : 0 < d) :
    (n : ℚ) / d = (n / d : Nat) + ((n % d : Nat) : ℚ) / d := by
  have hne : (d : ℚ) ≠ 0 := by exact_mod_cast hd.ne'
  rw [div_eq_iff hne, add_mul, div_mul_cancel₀ _ hne]
  exact_mod_cast (Nat.div_add_mod' n d).symm

/-- The part that a quotient leaves is less than one, and is one half only where the divisor is
twice the remainder. -/
theorem mod_div_bounds (n : Nat) {d : Nat} (hd : 0 < d) :
    0 ≤ ((n % d : Nat) : ℚ) / d ∧ ((n % d : Nat) : ℚ) / d < 1 ∧
      (((n % d : Nat) : ℚ) / d = 1 / 2 → d = 2 * (n % d)) := by
  have hpos : (0 : ℚ) < d := by exact_mod_cast hd
  refine ⟨by positivity, ?_, fun hhalf => ?_⟩
  · rw [div_lt_one hpos]
    exact_mod_cast Nat.mod_lt n hd
  · rw [div_eq_iff hpos.ne'] at hhalf
    have htwice : (d : ℚ) = 2 * (n % d : Nat) := by linarith
    exact_mod_cast htwice

/-- The remainder tells which whole number is nearest. -/
theorem isNearest_quotient (n : Nat) {d : Nat} (hd : 0 < d) :
    IsNearest ((n : ℚ) / d) (halfEven.quotient n d : Nat) := by
  obtain ⟨hnonneg, hlt, hhalf⟩ := mod_div_bounds n hd
  have hclose := abs_halfEven_sub_le n hd
  rw [abs_sub_comm] at hclose
  refine hclose.lt_or_eq.imp id fun htie => ⟨htie, ?_⟩
  -- at a tie the quotient was raised exactly if it was odd
  rw [natCast_div_eq n hd] at htie
  rw [Int.even_iff]
  by_cases hup : d < 2 * (n % d) ∨ (d = 2 * (n % d) ∧ n / d % 2 = 1)
  · simp only [quotient, if_pos hup, Nat.cast_add, Nat.cast_one, Int.cast_add, Int.cast_one,
      Int.cast_natCast] at htie ⊢
    rw [add_sub_add_left_eq_sub, abs_of_nonpos (by linarith)] at htie
    have heq := hhalf (by linarith)
    omega
  · simp only [quotient, if_neg hup, Int.cast_natCast] at htie ⊢
    rw [add_sub_cancel_left, abs_of_nonneg hnonneg] at htie
    have heq := hhalf htie
    omega

/-- A quotient of natural numbers is the rational quotient, rounded. -/
theorem round_natCast_div (mode : Rounding) (n : Nat) {d : Nat} (hd : 0 < d) :
    mode.round ((n : ℚ) / d) = mode.quotient n d := by
  have hsign : ¬(n : ℚ) / d < 0 := not_lt.2 (by positivity)
  cases mode with
  | down =>
    simp only [round, quotient, if_neg hsign]
    exact Rat.floor_natCast_div_natCast n d
  | halfEven => exact (isNearest_round _).unique (isNearest_quotient n hd)
  | up =>
    obtain ⟨hnonneg, hlt, -⟩ := mod_div_bounds n hd
    simp only [round, quotient, if_neg hsign]
    by_cases hzero : n % d = 0
    · rw [if_pos hzero, natCast_div_eq n hd, hzero, Nat.cast_zero, zero_div, add_zero]
      exact Int.ceil_natCast _
    · have hpos : 0 < ((n % d : Nat) : ℚ) / d := by
        have hrest : (0 : ℚ) < (n % d : Nat) := by exact_mod_cast Nat.pos_of_ne_zero hzero
        positivity
      rw [if_neg hzero, natCast_div_eq n hd, Int.ceil_eq_iff, Int.cast_natCast, Nat.cast_add,
        Nat.cast_one]
      constructor <;> linarith

/-- The sign of the divisor passes through, like that of the dividend. -/
theorem signedQuotient_neg_right (mode : Rounding) (n d : Int) :
    mode.signedQuotient n (-d) = -mode.signedQuotient n d := by
  simp only [signedQuotient, Int.sign_neg, Int.natAbs_neg, Int.mul_neg, Int.neg_mul]

/-- A quotient of integers that are not negative is that of natural numbers. -/
theorem signedQuotient_natCast (mode : Rounding) (n : Nat) {d : Nat} (hd : 0 < d) :
    mode.signedQuotient n d = mode.quotient n d := by
  rw [signedQuotient, Int.natAbs_natCast, Int.natAbs_natCast,
    Int.sign_eq_one_of_pos (by exact_mod_cast hd : (0 : Int) < d), Int.mul_one]
  rcases Nat.eq_zero_or_pos n with rfl | hn
  · simp
  · rw [Int.sign_eq_one_of_pos (by exact_mod_cast hn : (0 : Int) < n), Int.one_mul]

/-- **A rounded quotient is the rational quotient, rounded.** -/
theorem signedQuotient_eq_round (mode : Rounding) (n : Int) {d : Int} (hd : d ≠ 0) :
    mode.signedQuotient n d = mode.round ((n : ℚ) / d) := by
  obtain ⟨k, hk⟩ := Int.eq_nat_or_neg d
  have hpos : 0 < k := by omega
  obtain ⟨m, hm⟩ := Int.eq_nat_or_neg n
  have hbase : mode.signedQuotient m k = mode.round ((m : ℚ) / k) := by
    rw [signedQuotient_natCast mode m hpos, round_natCast_div mode m hpos]
  obtain rfl | rfl := hk <;> obtain rfl | rfl := hm
  · exact hbase
  · rw [signedQuotient_neg, hbase, ← round_neg, Int.cast_neg, neg_div]
    rfl
  · rw [signedQuotient_neg_right, hbase, ← round_neg, Int.cast_neg, div_neg]
    rfl
  · rw [signedQuotient_neg, signedQuotient_neg_right, neg_neg, hbase, Int.cast_neg, Int.cast_neg,
      neg_div_neg_eq]
    rfl

/-! ### Words -/

/-- Whether a mode takes a quotient of words to the next one. For the nearest one the remainder is
compared with what it lacks to the divisor. -/
def raises (mode : Rounding) (n d : BitVec 256) : Bool :=
  match mode with
  | .down => false
  | .halfEven =>
    decide (d - n % d < n % d) || (decide (n % d = d - n % d) && (n / d).getLsbD 0)
  | .up => decide (n % d ≠ 0)

/-- The quotient of two words, rounded, by sums and differences that wrap around. -/
def wordQuotient (mode : Rounding) (n d : BitVec 256) : BitVec 256 :=
  if mode.raises n d then n / d + 1 else n / d

/-- A difference or a sum of words that is formed on the way wraps around. -/
def Wraps (mode : Rounding) (n d : BitVec 256) : Prop :=
  BitVec.usubOverflow d (n % d) = true ∨
    (mode.raises n d = true ∧ BitVec.uaddOverflow (n / d) 1 = true)

section

variable (mode : Rounding) (n : BitVec 256) {d : BitVec 256} (hd : d ≠ 0)

include hd

/-- A divisor that is not zero is positive as a number. -/
theorem toNat_pos : 0 < d.toNat :=
  Nat.pos_of_ne_zero fun hzero => hd (BitVec.eq_of_toNat_eq hzero)

/-- What the remainder lacks to the divisor is found without wrapping around. -/
theorem toNat_gap : (d - n % d).toNat = d.toNat - n.toNat % d.toNat := by
  have hlt := Nat.mod_lt n.toNat (toNat_pos hd)
  rw [BitVec.toNat_sub_of_le, BitVec.toNat_umod]
  rw [BitVec.le_def, BitVec.toNat_umod]
  exact hlt.le

/-- On words a quotient is taken to the next one when it is on natural numbers. -/
theorem quotient_eq_of_raises : mode.quotient n.toNat d.toNat =
    if mode.raises n d then n.toNat / d.toNat + 1 else n.toNat / d.toNat := by
  have hlt := Nat.mod_lt n.toNat (toNat_pos hd)
  cases mode with
  | down => rfl
  | halfEven =>
    have hiff : halfEven.raises n d = true ↔ d.toNat < 2 * (n.toNat % d.toNat) ∨
        (d.toNat = 2 * (n.toNat % d.toNat) ∧ n.toNat / d.toNat % 2 = 1) := by
      simp only [raises, Bool.or_eq_true, Bool.and_eq_true, decide_eq_true_eq, BitVec.lt_def,
        BitVec.toNat_eq, toNat_gap n hd, BitVec.toNat_umod, BitVec.getLsbD, BitVec.toNat_udiv,
        Nat.testBit_zero]
      omega
    simp only [quotient, hiff]
  | up =>
    have hiff : up.raises n d = true ↔ n.toNat % d.toNat ≠ 0 := by
      simp only [raises, decide_eq_true_eq, ne_eq, BitVec.toNat_eq, BitVec.toNat_umod]
      rfl
    simp only [quotient, hiff, ite_not]

/-- Only a quotient that leaves a rest is taken to the next one. -/
theorem mod_ne_zero_of_raises (h : mode.raises n d = true) : n.toNat % d.toNat ≠ 0 := by
  intro hzero
  have hsame := quotient_eq_of_raises mode n hd
  have hwhole : mode.quotient n.toNat d.toNat = n.toNat / d.toNat := by
    conv_lhs => rw [← Nat.div_add_mod' n.toNat d.toNat, hzero, Nat.add_zero]
    exact quotient_mul mode (toNat_pos hd) _
  rw [if_pos h, hwhole] at hsame
  omega

/-- **No difference or sum of words wraps around.** -/
theorem not_wraps : ¬mode.Wraps n d := by
  have hlt := Nat.mod_lt n.toNat (toNat_pos hd)
  rintro (hsub | ⟨hraises, hadd⟩)
  · simp only [BitVec.usubOverflow, decide_eq_true_eq, BitVec.toNat_umod] at hsub
    omega
  · have hrest := mod_ne_zero_of_raises mode n hd hraises
    -- so the divisor is two at least, and the quotient is no more than half of the word
    have hhalf : n.toNat / d.toNat ≤ n.toNat / 2 := Nat.div_le_div_left (by omega) Nat.two_pos
    have hword := n.isLt
    have hone : (1 : BitVec 256).toNat = 1 := rfl
    simp only [BitVec.uaddOverflow, decide_eq_true_eq, BitVec.toNat_udiv, hone] at hadd
    omega

/-- **On words the outcome is the same.** -/
theorem toNat_wordQuotient :
    (mode.wordQuotient n d).toNat = mode.quotient n.toNat d.toNat := by
  have hwraps := not_wraps mode n hd
  rw [Wraps, not_or, not_and] at hwraps
  rw [quotient_eq_of_raises mode n hd, wordQuotient]
  split
  next hraises =>
    rw [BitVec.toNat_add_of_not_uaddOverflow (hwraps.2 hraises), BitVec.toNat_udiv]
    rfl
  next => exact BitVec.toNat_udiv

end

end Rounding

end RangeLedger
