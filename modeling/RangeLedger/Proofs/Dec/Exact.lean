import RangeLedger.Proofs.Number.Exact

/-!
# Arithmetic of decimals is exact but for one rounding

Every product and every quotient of decimals is the exact rational one, rounded once at the
eighteenth fraction digit, over the whole range of decimals. Apart from a division by zero they fail
for two reasons only: the product of the raw magnitudes does not fit the word, or the outcome leaves
the range. A product that fits the word never leaves the range, as it is divided by the scale; a
quotient by a small number may.

All this is also told of signs and words. A magnitude, even that of the least decimal, is a word of
256 bits, and the sums and differences of words wrap around (`mulOnWords`, `quoOnWords`). The
outcomes are the same, and nothing wraps around on the way.

## Main results

* `mulWith_yields`, `quoWith_yields`: products and quotients, and when they fail.
* `mulWith_eq_words`, `quoWith_eq_words`: the same on signs and words.
* `arithmetic_exact`: all operations together.
-/

namespace RangeLedger.Dec

/-- The number that a decimal stands for. -/
def value (a : Dec) : ℚ := a.raw / 10 ^ 18

/-- An outcome with a given raw integer under a condition, and an overflow where it does not hold.
-/
def Yields (outcome : Except MathError Dec) (fits : Prop) (n : Int) : Prop :=
  (fits → ∃ c, outcome = .ok c ∧ c.raw = n) ∧ (¬fits → outcome = .error .overflow)

variable (mode : Rounding) (a b : Dec)

/-- Words have 256 bits. -/
theorem wordSize_eq : wordSize = 2 ^ 256 := by decide

/-- A decimal has a sign and 255 bits. -/
theorem limit_eq : limit = 2 ^ 255 := by decide

/-- A decimal has eighteen places. -/
theorem scale_eq : scale = 10 ^ 18 := by decide

/-- What is made of a raw integer is in range, or an overflow. -/
theorem ofRaw_yields (n : Int) : Yields (ofRaw n) (-2 ^ 255 ≤ n ∧ n ≤ 2 ^ 255 - 1) n := by
  rw [Yields, ← limit_eq]
  refine ⟨fun hfits => ⟨⟨n, hfits.1, by omega⟩, ofRaw_eq_ok_iff.2 rfl, rfl⟩, fun hfits => ?_⟩
  exact ofRaw_eq_error_iff.2 ⟨rfl, by omega⟩

/-! ### Products and quotients -/

/-- A rounded quotient by the scale is in range, if what is divided fits the word. -/
theorem signedQuotient_scale_inRange {n : Int} (h : n.natAbs < wordSize) :
    -limit ≤ mode.signedQuotient n scale ∧ mode.signedQuotient n scale < limit := by
  have hscale : (scale : Int) ≠ 0 := by decide
  have hround := Rounding.quotient_le_down_succ mode n.natAbs scale
  have hmagnitude := Rounding.natAbs_signedQuotient mode n hscale
  rw [Int.natAbs_natCast] at hmagnitude
  rw [← hmagnitude] at hround
  generalize mode.signedQuotient n scale = q at hround ⊢
  rw [wordSize] at h
  rw [scale] at hround
  rw [limit]
  omega

/-- **A product of decimals** is the exact one, rounded, if the product of the raw magnitudes fits
the word. -/
theorem mulWith_yields : Yields (a.mulWith mode b) (a.raw.natAbs * b.raw.natAbs < 2 ^ 256)
    (mode.round (a.value * b.value * 10 ^ 18)) := by
  have hvalue : a.value * b.value * 10 ^ 18 = ((a.raw * b.raw : Int) : ℚ) / (scale : Int) := by
    rw [value, value, Int.cast_mul, Int.cast_natCast, scale_eq, Nat.cast_pow, Nat.cast_ofNat]
    ring
  rw [hvalue, ← Rounding.signedQuotient_eq_round mode _ (by decide), ← wordSize_eq, Yields, mulWith]
  constructor
  · intro hfits
    have hrange := signedQuotient_scale_inRange mode (n := a.raw * b.raw) (by rwa [Int.natAbs_mul])
    rw [if_pos hfits]
    exact ⟨⟨_, hrange.1, hrange.2⟩, ofRaw_eq_ok_iff.2 rfl, rfl⟩
  · intro hfits
    rw [if_neg hfits]

variable {b} in
/-- **A quotient of decimals** is the exact one, rounded, if the scaled raw magnitude of the
dividend fits the word and the outcome is in range. -/
theorem quoWith_yields (hb : b.raw ≠ 0) : Yields (a.quoWith mode b)
    (a.raw.natAbs * 10 ^ 18 < 2 ^ 256 ∧ -2 ^ 255 ≤ mode.round (a.value / b.value * 10 ^ 18) ∧
      mode.round (a.value / b.value * 10 ^ 18) ≤ 2 ^ 255 - 1)
    (mode.round (a.value / b.value * 10 ^ 18)) := by
  have hne : (b.raw : ℚ) ≠ 0 := by exact_mod_cast hb
  have hvalue : a.value / b.value * 10 ^ 18 = ((a.raw * scale : Int) : ℚ) / b.raw := by
    rw [value, value, Int.cast_mul, Int.cast_natCast, scale_eq, Nat.cast_pow, Nat.cast_ofNat]
    field_simp
  rw [hvalue, ← Rounding.signedQuotient_eq_round mode _ hb, ← wordSize_eq, ← scale_eq, Yields,
    quoWith, if_neg hb]
  obtain ⟨hok, herror⟩ := ofRaw_yields (mode.signedQuotient (a.raw * scale) b.raw)
  by_cases hfits : a.raw.natAbs * scale < wordSize
  · rw [if_pos hfits]
    exact ⟨fun h => hok h.2, fun h => herror fun hrange => h ⟨hfits, hrange⟩⟩
  · rw [if_neg hfits]
    exact ⟨fun h => absurd h.1 hfits, fun _ => rfl⟩

/-! ### Signs and words -/

/-- The magnitude of the raw integer, which fits the word even of the least decimal. -/
def magnitude (a : Dec) : BitVec 256 := BitVec.ofNat 256 a.raw.natAbs

/-- The raw integer of one, as a word. -/
def scaleWord : BitVec 256 := BitVec.ofNat 256 scale

/-- The decimal with a given sign and magnitude, if it is in range. -/
def ofParts (negative : Bool) (m : BitVec 256) : Except MathError Dec :=
  ofRaw (if negative then -(m.toNat : Int) else m.toNat)

/-- The product, by signs and words. -/
def mulOnWords : Except MathError Dec :=
  if BitVec.umulOverflow a.magnitude b.magnitude then .error .overflow
  else ofParts (a.isNegative != b.isNegative)
    (mode.wordQuotient (a.magnitude * b.magnitude) scaleWord)

/-- The quotient, by signs and words. -/
def quoOnWords : Except MathError Dec :=
  if b.isZero then .error .divisionByZero
  else if BitVec.umulOverflow a.magnitude scaleWord then .error .overflow
  else ofParts (a.isNegative != b.isNegative)
    (mode.wordQuotient (a.magnitude * scaleWord) b.magnitude)

/-- The magnitude of a decimal fits its word. -/
@[simp] theorem toNat_magnitude : a.magnitude.toNat = a.raw.natAbs := by
  have hlow := a.neg_limit_le
  have hhigh := a.lt_limit
  rw [limit] at hlow hhigh
  exact Nat.mod_eq_of_lt (by omega)

/-- The scale fits its word. -/
@[simp] theorem toNat_scaleWord : scaleWord.toNat = scale := by decide

/-- A sign put on a magnitude, which is zero where the sign is. -/
theorem sign_mul_eq_ite (n : Int) {q : Int} (h : n = 0 → q = 0) :
    n.sign * q = if n < 0 then -q else q := by
  rcases lt_trichotomy n 0 with hneg | rfl | hpos
  · rw [if_pos hneg, Int.sign_eq_neg_one_of_neg hneg, neg_one_mul]
  · rw [h rfl]
    rfl
  · rw [if_neg (not_lt.2 hpos.le), Int.sign_eq_one_of_pos hpos, one_mul]

/-- Two signs put on a magnitude, which is zero where one of them is. -/
theorem sign_mul_sign_eq_ite (m n : Int) {q : Nat} (h : m = 0 ∨ n = 0 → q = 0) :
    m.sign * n.sign * q = if decide (m < 0) != decide (n < 0) then -(q : Int) else q := by
  have hq : n = 0 → (q : Int) = 0 := fun hn => by rw [h (.inr hn), Nat.cast_zero]
  have hnq : m = 0 → n.sign * q = 0 := fun hm => by rw [h (.inl hm), Nat.cast_zero, mul_zero]
  rw [mul_assoc, sign_mul_eq_ite m hnq, sign_mul_eq_ite n hq]
  by_cases hm : m < 0 <;> by_cases hn : n < 0 <;> simp [hm, hn]

/-- A quotient of words with two signs is that of natural numbers with the product of the signs. -/
theorem ofParts_wordQuotient (m n : Int) (x : BitVec 256) {d : BitVec 256} (hd : d ≠ 0)
    (h : m = 0 ∨ n = 0 → x.toNat = 0) :
    ofParts (decide (m < 0) != decide (n < 0)) (mode.wordQuotient x d) =
      ofRaw (m.sign * n.sign * mode.quotient x.toNat d.toNat) := by
  rw [ofParts, Rounding.toNat_wordQuotient mode x hd, sign_mul_sign_eq_ite]
  intro hzero
  rw [h hzero, Rounding.quotient_zero]

/-- A product of words wraps around where the product of the numbers does not fit the word. -/
theorem umulOverflow_iff (x y : BitVec 256) :
    BitVec.umulOverflow x y = true ↔ ¬x.toNat * y.toNat < wordSize := by
  rw [BitVec.umulOverflow, decide_eq_true_iff, wordSize_eq, not_lt]

/-- **Products on words** are products. -/
theorem mulWith_eq_words : a.mulWith mode b = mulOnWords mode a b := by
  have hfits := umulOverflow_iff a.magnitude b.magnitude
  rw [toNat_magnitude, toNat_magnitude] at hfits
  rw [mulWith, mulOnWords]
  by_cases hword : BitVec.umulOverflow a.magnitude b.magnitude = true
  · rw [if_pos hword, if_neg (hfits.1 hword)]
  have hproduct := BitVec.toNat_mul_of_not_umulOverflow hword
  rw [toNat_magnitude, toNat_magnitude] at hproduct
  have hzero : a.raw = 0 ∨ b.raw = 0 → (a.magnitude * b.magnitude).toNat = 0 := by
    rw [hproduct]
    rintro (h | h) <;> simp [h]
  have hsign : (scale : Int).sign = 1 := by decide
  rw [if_neg hword, if_pos (not_not.1 (mt hfits.2 hword)), isNegative, isNegative,
    ofParts_wordQuotient mode a.raw b.raw _ (by decide) hzero, hproduct, toNat_scaleWord,
    Rounding.signedQuotient, Int.sign_mul, hsign, mul_one, Int.natAbs_mul, Int.natAbs_natCast]

/-- **Quotients on words** are quotients. -/
theorem quoWith_eq_words : a.quoWith mode b = quoOnWords mode a b := by
  have hfits := umulOverflow_iff a.magnitude scaleWord
  rw [toNat_magnitude, toNat_scaleWord] at hfits
  rw [quoWith, quoOnWords]
  by_cases hdivisor : b.raw = 0
  · have hisZero : b.isZero = true := by simpa [isZero] using hdivisor
    rw [if_pos hdivisor, if_pos hisZero]
  have hisZero : ¬b.isZero = true := by simpa [isZero] using hdivisor
  rw [if_neg hdivisor, if_neg hisZero]
  by_cases hword : BitVec.umulOverflow a.magnitude scaleWord = true
  · rw [if_pos hword, if_neg (hfits.1 hword)]
  have hproduct := BitVec.toNat_mul_of_not_umulOverflow hword
  rw [toNat_magnitude, toNat_scaleWord] at hproduct
  have hzero : a.raw = 0 ∨ b.raw = 0 → (a.magnitude * scaleWord).toNat = 0 := by
    rw [hproduct, or_iff_left hdivisor]
    rintro h
    simp [h]
  have hmagnitude : b.magnitude ≠ 0 := by
    intro h
    have hnone := toNat_magnitude b
    rw [h] at hnone
    exact hdivisor (Int.natAbs_eq_zero.1 hnone.symm)
  have hsign : (scale : Int).sign = 1 := by decide
  rw [if_neg hword, if_pos (not_not.1 (mt hfits.2 hword)), isNegative, isNegative,
    ofParts_wordQuotient mode a.raw b.raw _ hmagnitude hzero, hproduct, toNat_magnitude,
    Rounding.signedQuotient, Int.sign_mul, hsign, mul_one, Int.natAbs_mul, Int.natAbs_natCast]

/-! ### Roots -/

/-- **A square root of a decimal** is the exact one, rounded down, if the scaled raw integer fits
the word. -/
theorem sqrt_of_nonneg {a : Dec} (ha : 0 ≤ a.raw) :
    (a.raw * 10 ^ 18 < 2 ^ 256 → ∃ c, a.sqrt = .ok c ∧ 0 ≤ c.raw ∧
      c.raw ^ 2 ≤ a.raw * 10 ^ 18 ∧ a.raw * 10 ^ 18 < (c.raw + 1) ^ 2) ∧
    (¬a.raw * 10 ^ 18 < 2 ^ 256 → a.sqrt = .error .overflow) := by
  obtain ⟨n, hn⟩ := Int.eq_ofNat_of_zero_le ha
  have hiff : a.raw.natAbs * scale < wordSize ↔ a.raw * 10 ^ 18 < 2 ^ 256 := by
    rw [hn, Int.natAbs_natCast, wordSize_eq, scale_eq]
    exact_mod_cast Iff.rfl
  rw [sqrt, if_neg (not_lt.2 ha), ← hiff]
  constructor
  · intro hfits
    have hroot : Nat.sqrt (a.raw.natAbs * scale) < 2 ^ 128 := by
      rw [Nat.sqrt_lt', ← pow_mul, ← wordSize_eq]
      exact hfits
    have hscaled : a.raw * 10 ^ 18 = (a.raw.natAbs * scale : Nat) := by
      rw [hn, Int.natAbs_natCast, scale_eq]
      push_cast
      rfl
    rw [if_pos hfits, hscaled]
    generalize a.raw.natAbs * scale = square at hroot ⊢
    have hlow : Nat.sqrt square ^ 2 ≤ square := Nat.sqrt_le' square
    have hhigh : square < (Nat.sqrt square + 1) ^ 2 := Nat.lt_succ_sqrt' square
    refine ⟨⟨Nat.sqrt square, ?_, ?_⟩, ofRaw_eq_ok_iff.2 rfl, ?_, ?_, ?_⟩
    · rw [limit]
      omega
    · rw [limit]
      omega
    · exact Int.natCast_nonneg _
    · change ((Nat.sqrt square : Nat) : Int) ^ 2 ≤ square
      exact_mod_cast hlow
    · change (square : Int) < ((Nat.sqrt square : Nat) + 1) ^ 2
      exact_mod_cast hhigh
  · intro hfits
    rw [if_neg hfits]

/-! ### Exactness -/

/-- **The arithmetic of decimals is exact but for one rounding**, and fails only where it has to.

* A product is the exact one, rounded, if the product of the raw magnitudes is less than `2 ^ 256`;
  otherwise it overflows.
* A quotient by zero is a division by zero. Every other one is the exact quotient, rounded, if the
  scaled raw magnitude of the dividend is less than `2 ^ 256` and the rounded quotient is in range;
  otherwise it overflows.
* A root of a negative decimal is refused by its own error. Every other one is the exact root,
  rounded down, if the scaled raw integer is less than `2 ^ 256`; otherwise it overflows.
* On signs and words products and quotients come to the same, and no sum or difference of words that
  is formed on the way wraps around. -/
theorem arithmetic_exact :
    Yields (a.mulWith mode b) (a.raw.natAbs * b.raw.natAbs < 2 ^ 256)
      (mode.round (a.value * b.value * 10 ^ 18)) ∧
    (b.raw = 0 → a.quoWith mode b = .error .divisionByZero) ∧
    (b.raw ≠ 0 → Yields (a.quoWith mode b)
      (a.raw.natAbs * 10 ^ 18 < 2 ^ 256 ∧ -2 ^ 255 ≤ mode.round (a.value / b.value * 10 ^ 18) ∧
        mode.round (a.value / b.value * 10 ^ 18) ≤ 2 ^ 255 - 1)
      (mode.round (a.value / b.value * 10 ^ 18))) ∧
    (a.raw < 0 → a.sqrt = .error (.negativeSqrt a)) ∧
    (0 ≤ a.raw →
      (a.raw * 10 ^ 18 < 2 ^ 256 → ∃ c, a.sqrt = .ok c ∧ 0 ≤ c.raw ∧
        c.raw ^ 2 ≤ a.raw * 10 ^ 18 ∧ a.raw * 10 ^ 18 < (c.raw + 1) ^ 2) ∧
      (¬a.raw * 10 ^ 18 < 2 ^ 256 → a.sqrt = .error .overflow)) ∧
    a.mulWith mode b = mulOnWords mode a b ∧ a.quoWith mode b = quoOnWords mode a b ∧
    ∀ n d : BitVec 256, d ≠ 0 → ¬mode.Wraps n d :=
  ⟨mulWith_yields mode a b, fun hzero => if_pos hzero, quoWith_yields mode a, fun h => if_pos h,
    sqrt_of_nonneg, mulWith_eq_words mode a b, quoWith_eq_words mode a b,
    fun n _ hd => Rounding.not_wraps mode n hd⟩

/-- Ties of products at an even and at an odd last digit, and two thirds in two modes. -/
example :
    mul ⟨5, by decide, by decide⟩ ⟨10 ^ 17, by decide, by decide⟩ = .ok zero ∧
    mul ⟨15, by decide, by decide⟩ ⟨10 ^ 17, by decide, by decide⟩ =
      .ok ⟨2, by decide, by decide⟩ ∧
    quoWith .down ⟨2, by decide, by decide⟩ ⟨3, by decide, by decide⟩ =
      .ok ⟨666_666_666_666_666_666, by decide, by decide⟩ ∧
    quoWith .up ⟨-2, by decide, by decide⟩ ⟨3, by decide, by decide⟩ =
      .ok ⟨-666_666_666_666_666_667, by decide, by decide⟩ := by
  decide +kernel

end RangeLedger.Dec
