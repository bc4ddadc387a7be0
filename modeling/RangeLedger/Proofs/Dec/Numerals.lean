import RangeLedger.Dec.Parser
import RangeLedger.Proofs.Dec.Exact
import RangeLedger.Proofs.Text.Digits

/-!
# Numerals

A numeral is spelled by one or more digits; a point may follow them, with up to eighteen digits
behind it; and a single minus sign may stand in front. The rules are those of the relation
`Numeral.Spells`, which says nothing of how a text is taken apart. A text spells one numeral at most
(`Numeral.spells_iff`), and denotes the rational number of that numeral.

A decimal is read from just the texts that denote a number in range, and is that number. Of the
others, a text that spells a numeral with a whole part below `2 ^ 256` is an overflow, and the rest
is malformed.

The same is told of bytes and words. There the whole part may not fit its word, and then the text is
malformed; scaled it may not fit, or not with the fraction added, or not with the sign put on, and
then it is an overflow. A character beyond ASCII has several bytes, none of which is a digit.

## Main results

* `Numeral.spells_iff`: the numeral that a text spells, if it spells one.
* `Dec.parse_eq_ok_iff`: a decimal is read from the texts that denote it.
* `Dec.parse_eq_words`: reading by bytes and words.
* `Dec.parse_classifies`: all texts by what is read from them.
-/

namespace RangeLedger

namespace Numeral

variable {cs : List Char} {n : Numeral}

/-! ### Spelling -/

/-- How numerals are spelled. -/
inductive Spells : List Char → Numeral → Prop where
  /-- A whole number. -/
  | whole {integer : List Char} : integer ≠ [] → Digits.allDigits integer = true →
      Spells integer ⟨false, integer, []⟩
  /-- A number with a point, behind which there may be nothing. -/
  | pointed {integer fraction : List Char} : integer ≠ [] → Digits.allDigits integer = true →
      Digits.allDigits fraction = true → fraction.length ≤ 18 →
        Spells (integer ++ '.' :: fraction) ⟨false, integer, fraction⟩
  /-- A number with a minus sign, which can have only one. -/
  | minus {cs integer fraction : List Char} : Spells cs ⟨false, integer, fraction⟩ →
      Spells ('-' :: cs) ⟨true, integer, fraction⟩

/-- A numeral that some text spells is well-formed. -/
theorem Spells.wellFormed (h : Spells cs n) : n.WellFormed := by
  induction h with
  | whole hne hdigits => exact ⟨hne, Nat.zero_le _, hdigits, rfl⟩
  | pointed hne hdigits hfraction hlength => exact ⟨hne, hlength, hdigits, hfraction⟩
  | minus _ ih => exact ih

/-- There is no point among digits. -/
theorem ne_point_of_digits {integer : List Char} (hdigits : Digits.allDigits integer = true) :
    ∀ c ∈ integer, decide (c ≠ '.') = true := fun _ hc =>
  decide_eq_true fun heq => Digits.notMem_of_allDigits hdigits (c := '.') rfl (heq ▸ hc)

/-- Digits in front of a point, or of the end, are what the point splits off. -/
theorem splitPoint_append {integer : List Char} (hdigits : Digits.allDigits integer = true)
    (rest : List Char) : splitPoint (integer ++ '.' :: rest) = (integer, rest) := by
  have hkeep := ne_point_of_digits hdigits
  rw [splitPoint, List.takeWhile_append_of_pos hkeep, List.dropWhile_append_of_pos hkeep]
  simp

/-- A text of digits has nothing behind a point. -/
theorem splitPoint_digits {integer : List Char} (hdigits : Digits.allDigits integer = true) :
    splitPoint integer = (integer, []) := by
  have hkeep := ne_point_of_digits hdigits
  rw [splitPoint, List.takeWhile_eq_self_iff.2 hkeep, List.dropWhile_eq_nil_iff.2 hkeep]
  rfl

/-- A text without a minus sign in front is split at its point. -/
theorem ofChars_of_head (h : cs.head? ≠ some '-') :
    ofChars cs = ⟨false, (splitPoint cs).1, (splitPoint cs).2⟩ := by
  rw [ofChars]
  rintro rest rfl
  exact h rfl

/-- Digits do not start with a minus sign. -/
theorem head?_append_ne {integer : List Char} (hne : integer ≠ [])
    (hdigits : Digits.allDigits integer = true) (rest : List Char) :
    (integer ++ rest).head? ≠ some '-' := by
  obtain ⟨c, tail, rfl⟩ := List.exists_cons_of_ne_nil hne
  intro heq
  obtain rfl : c = '-' := Option.some.inj heq
  exact Digits.notMem_of_allDigits hdigits (c := '-') rfl List.mem_cons_self

/-- The numeral that a text spells is the one that is read off its characters. -/
theorem Spells.eq_ofChars (h : Spells cs n) : n = ofChars cs := by
  cases h with
  | whole hne hdigits =>
    have hhead := head?_append_ne hne hdigits []
    rw [List.append_nil] at hhead
    rw [ofChars_of_head hhead, splitPoint_digits hdigits]
  | pointed hne hdigits _ _ =>
    rw [ofChars_of_head (head?_append_ne hne hdigits _), splitPoint_append hdigits]
  | minus h =>
    rw [ofChars]
    cases h with
    | whole _ hdigits => rw [splitPoint_digits hdigits]
    | pointed _ hdigits _ _ => rw [splitPoint_append hdigits]

/-- A text that is split into digits spells them. -/
theorem spells_splitPoint (h : WellFormed ⟨false, (splitPoint cs).1, (splitPoint cs).2⟩) :
    Spells cs ⟨false, (splitPoint cs).1, (splitPoint cs).2⟩ := by
  obtain ⟨hne, hlength, hdigits, hfraction⟩ := h
  have hwhole : (splitPoint cs).1 ++ cs.dropWhile (· ≠ '.') = cs := List.takeWhile_append_dropWhile
  cases hrest : cs.dropWhile (· ≠ '.') with
  | nil =>
    have hnone : (splitPoint cs).2 = [] := by rw [splitPoint, hrest]; rfl
    rw [hrest, List.append_nil] at hwhole
    rw [hnone]
    nth_rewrite 1 [← hwhole]
    exact .whole hne hdigits
  | cons c rest =>
    have hpoint : c = '.' := by
      have hstop := List.head?_dropWhile_not (fun c : Char => decide (c ≠ '.')) cs
      rw [hrest] at hstop
      simpa using hstop
    have hsome : (splitPoint cs).2 = rest := by rw [splitPoint, hrest]; rfl
    rw [hsome] at hlength hfraction ⊢
    rw [hrest, hpoint] at hwhole
    nth_rewrite 1 [← hwhole]
    exact .pointed hne hdigits hfraction hlength

/-- **A text spells the numeral of its parts**, if they are digits as they should be, and no
other. -/
theorem spells_iff : Spells cs n ↔ n = ofChars cs ∧ n.WellFormed := by
  constructor
  · intro h
    exact ⟨h.eq_ofChars, h.wellFormed⟩
  · rintro ⟨rfl, hformed⟩
    by_cases hsign : cs.head? = some '-'
    · obtain ⟨rest, rfl⟩ := List.head?_eq_some_iff.1 hsign
      exact .minus (spells_splitPoint hformed)
    · rw [ofChars_of_head hsign] at hformed ⊢
      exact spells_splitPoint hformed

/-- A text spells one numeral at most. -/
theorem Spells.unique {n' : Numeral} (h : Spells cs n) (h' : Spells cs n') : n = n' :=
  h.eq_ofChars.trans h'.eq_ofChars.symm

/-! ### Numbers -/

/-- The number that a numeral denotes, without its sign. -/
def absValue (n : Numeral) : ℚ :=
  Digits.value n.integer + Digits.value n.fraction / 10 ^ n.fraction.length

/-- The number that a numeral denotes. -/
def value (n : Numeral) : ℚ := if n.negative then -n.absValue else n.absValue

/-- The number is that of a decimal. -/
def InRange (n : Numeral) : Prop := -2 ^ 255 ≤ n.value * 10 ^ 18 ∧ n.value * 10 ^ 18 ≤ 2 ^ 255 - 1

/-- The magnitude of a numeral is its number without the sign, scaled. -/
theorem magnitude_eq (h : n.fraction.length ≤ 18) : (n.magnitude : ℚ) = n.absValue * 10 ^ 18 := by
  have hsplit : (10 : ℚ) ^ 18 = 10 ^ (18 - n.fraction.length) * 10 ^ n.fraction.length := by
    rw [← pow_add, Nat.sub_add_cancel h]
  have hne : (10 : ℚ) ^ n.fraction.length ≠ 0 := pow_ne_zero _ (by norm_num)
  have hcast : (n.magnitude : ℚ) = Digits.value n.integer * 10 ^ 18 +
      Digits.value n.fraction * 10 ^ (18 - n.fraction.length) := by
    rw [magnitude, Dec.scale_eq, Dec.precision, Nat.pow_eq]
    push_cast
    rfl
  rw [hcast, absValue, add_mul]
  nth_rewrite 3 [hsplit]
  field_simp

/-- The raw integer of a numeral is its number, scaled. -/
theorem raw_eq (h : n.fraction.length ≤ 18) : (n.raw : ℚ) = n.value * 10 ^ 18 := by
  rw [raw, value]
  split
  · rw [Int.cast_neg, Int.cast_natCast, magnitude_eq h, neg_mul]
  · rw [Int.cast_natCast, magnitude_eq h]

/-- The number of a numeral is that of a decimal just if its raw integer is in range. -/
theorem inRange_iff (h : n.fraction.length ≤ 18) :
    n.InRange ↔ -Dec.limit ≤ n.raw ∧ n.raw < Dec.limit := by
  rw [InRange, ← raw_eq h, Dec.limit_eq, ← Int.le_sub_one_iff]
  exact_mod_cast Iff.rfl

/-- Without its sign the scaled number is no less than the whole part. -/
theorem integer_le_natAbs_raw (n : Numeral) :
    Digits.value n.integer * Dec.scale ≤ n.raw.natAbs := by
  have hmagnitude : n.raw.natAbs = n.magnitude := by
    rw [raw]
    split <;> omega
  rw [hmagnitude, magnitude]
  exact Nat.le_add_right _ _

/-- The whole part of a number in range is far below the limit for whole parts. -/
theorem InRange.integer_lt (h : n.InRange) (hlength : n.fraction.length ≤ 18) :
    Digits.value n.integer < 2 ^ 256 := by
  have hrange := (inRange_iff hlength).1 h
  have hle := n.integer_le_natAbs_raw
  rw [Dec.limit] at hrange
  rw [Dec.scale] at hle
  omega

end Numeral

namespace Dec

variable {s : String} {n : Numeral}

/-! ### Reading -/

/-- A numeral with a whole part that fits its word is read by its raw integer. -/
theorem parse_of_spells (h : n.Spells s.toList) (hinteger : Digits.value n.integer < 2 ^ 256) :
    parse s = ofRaw n.raw := by
  obtain ⟨rfl, hformed⟩ := Numeral.spells_iff.1 h
  exact if_pos ⟨hformed, wordSize_eq ▸ hinteger⟩

/-- Every other text is malformed. -/
theorem parse_of_not_spells
    (h : ¬∃ n, Numeral.Spells s.toList n ∧ Digits.value n.integer < 2 ^ 256) :
    parse s = .error (.malformedDecimal s) := by
  refine if_neg fun hformed => h ⟨_, Numeral.spells_iff.2 ⟨rfl, hformed.1⟩, ?_⟩
  exact wordSize_eq ▸ hformed.2

/-- There is no third way in which a text is read. -/
theorem parse_cases (s : String) :
    (∃ n, Numeral.Spells s.toList n ∧ Digits.value n.integer < 2 ^ 256 ∧
      parse s = ofRaw n.raw) ∨
    (¬∃ n, Numeral.Spells s.toList n ∧ Digits.value n.integer < 2 ^ 256) ∧
      parse s = .error (.malformedDecimal s) := by
  by_cases h : ∃ n, Numeral.Spells s.toList n ∧ Digits.value n.integer < 2 ^ 256
  · obtain ⟨n, hspells, hinteger⟩ := h
    exact .inl ⟨n, hspells, hinteger, parse_of_spells hspells hinteger⟩
  · exact .inr ⟨h, parse_of_not_spells h⟩

/-- A numeral denotes a decimal if it has the same raw integer. -/
theorem value_eq_iff {cs : List Char} (h : n.Spells cs) {d : Dec} :
    n.value = d.value ↔ d.raw = n.raw := by
  have hne : (10 : ℚ) ^ 18 ≠ 0 := by norm_num
  rw [value, eq_div_iff hne, ← Numeral.raw_eq h.wellFormed.2.1, Int.cast_inj, eq_comm]

/-- **A decimal is read from the texts that denote it**, and from no other. -/
theorem parse_eq_ok_iff {d : Dec} :
    parse s = .ok d ↔ ∃ n, Numeral.Spells s.toList n ∧ n.value = d.value := by
  constructor
  · intro h
    obtain ⟨n, hspells, -, hparse⟩ | ⟨-, hparse⟩ := parse_cases s
    · exact ⟨n, hspells, (value_eq_iff hspells).2 (ofRaw_eq_ok_iff.1 (hparse.symm.trans h))⟩
    · cases hparse.symm.trans h
  · rintro ⟨n, hspells, heq⟩
    have hraw := (value_eq_iff hspells).1 heq
    have hrange : n.InRange :=
      (Numeral.inRange_iff hspells.wellFormed.2.1).2 (hraw ▸ ⟨d.neg_limit_le, d.lt_limit⟩)
    rw [parse_of_spells hspells (hrange.integer_lt hspells.wellFormed.2.1), ofRaw_eq_ok_iff]
    exact hraw

/-- A decimal is read from the numerals in range. -/
theorem exists_parse_iff :
    (∃ d, parse s = .ok d) ↔ ∃ n, Numeral.Spells s.toList n ∧ n.InRange := by
  constructor
  · rintro ⟨d, h⟩
    obtain ⟨n, hspells, heq⟩ := parse_eq_ok_iff.1 h
    refine ⟨n, hspells, (Numeral.inRange_iff hspells.wellFormed.2.1).2 ?_⟩
    exact (value_eq_iff hspells).1 heq ▸ ⟨d.neg_limit_le, d.lt_limit⟩
  · rintro ⟨n, hspells, hrange⟩
    obtain ⟨hlow, hhigh⟩ := (Numeral.inRange_iff hspells.wellFormed.2.1).1 hrange
    exact ⟨⟨n.raw, hlow, hhigh⟩, parse_eq_ok_iff.2 ⟨n, hspells, (value_eq_iff hspells).2 rfl⟩⟩

/-- A numeral out of range is an overflow, if its whole part fits its word. -/
theorem parse_eq_overflow_iff : parse s = .error .overflow ↔
    ∃ n, Numeral.Spells s.toList n ∧ Digits.value n.integer < 2 ^ 256 ∧ ¬n.InRange := by
  constructor
  · intro h
    obtain ⟨n, hspells, hinteger, -⟩ | ⟨-, hparse⟩ := parse_cases s
    · refine ⟨n, hspells, hinteger, fun hrange => ?_⟩
      obtain ⟨d, hd⟩ := exists_parse_iff.2 ⟨n, hspells, hrange⟩
      cases hd.symm.trans h
    · cases hparse.symm.trans h
  · rintro ⟨n, hspells, hinteger, hrange⟩
    rw [Numeral.inRange_iff hspells.wellFormed.2.1] at hrange
    rw [parse_of_spells hspells hinteger, ofRaw_eq_error_iff]
    exact ⟨rfl, by omega⟩

/-- A text is malformed if it spells no numeral with a whole part that fits its word. -/
theorem parse_eq_malformed_iff : parse s = .error (.malformedDecimal s) ↔
    ¬∃ n, Numeral.Spells s.toList n ∧ Digits.value n.integer < 2 ^ 256 := by
  refine ⟨?_, parse_of_not_spells⟩
  rintro h ⟨n, hspells, hinteger⟩
  rw [parse_of_spells hspells hinteger, ofRaw_eq_error_iff] at h
  cases h.1

/-- There are two failures, and a malformed text is reported as it is. -/
theorem parse_eq_error {e : MathError} (h : parse s = .error e) :
    e = .overflow ∨ e = .malformedDecimal s := by
  obtain ⟨n, -, -, hparse⟩ | ⟨-, hparse⟩ := parse_cases s
  · exact .inl (ofRaw_eq_error_iff.1 (hparse.symm.trans h)).1
  · exact .inr (Except.error.inj (hparse.symm.trans h)).symm

/-! ### Bytes and words -/

/-- Whether a byte is that of a digit. -/
def isDigitByte (b : UInt8) : Bool := 48 ≤ b.toNat ∧ b.toNat ≤ 57

/-- The bytes of a text. -/
def bytes (cs : List Char) : List UInt8 := cs.flatMap String.utf8EncodeChar

/-- The word that a list of digits denotes, if it fits. -/
def word? (ds : List Char) : Option (BitVec 256) :=
  if Digits.value ds < 2 ^ 256 then some (BitVec.ofNat 256 (Digits.value ds)) else none

/-- The decimal with a given sign, whole part and fraction, if it is in range on the way and in the
end. -/
def ofWords (negative : Bool) (integer fraction : BitVec 256) : Except MathError Dec :=
  if BitVec.umulOverflow integer scaleWord then .error .overflow
  else if BitVec.uaddOverflow (integer * scaleWord) fraction then .error .overflow
  else ofParts negative (integer * scaleWord + fraction)

/-- The decimal that a text denotes, by bytes and words: the fraction is filled up with zeros to
eighteen digits. -/
def parseOnWords (s : String) : Except MathError Dec :=
  let n := Numeral.ofChars s.toList
  if n.integer = [] ∨ 18 < (bytes n.fraction).length ∨
      (bytes n.integer ++ bytes n.fraction).all isDigitByte = false then
    .error (.malformedDecimal s)
  else
    match word? n.integer, word? (n.fraction.rightpad 18 '0') with
    | some integer, some fraction => ofWords n.negative integer fraction
    | _, _ => .error (.malformedDecimal s)

/-- A byte is that of a digit by its number. -/
theorem isDigitByte_ofNat {v : Nat} (h : v < 256) :
    isDigitByte (UInt8.ofNat v) = decide (48 ≤ v ∧ v ≤ 57) := by
  rw [isDigitByte, UInt8.toNat_ofNat_of_lt' h]

/-- A character is a digit if all its bytes are. -/
theorem all_isDigitByte (c : Char) :
    (String.utf8EncodeChar c).all isDigitByte = c.isDigit := by
  have hdigit : c.isDigit = decide (48 ≤ c.toNat ∧ c.toNat ≤ 57) :=
    Bool.eq_iff_iff.2 (Digits.isDigit_iff.trans decide_eq_true_iff.symm)
  rw [hdigit, String.utf8EncodeChar]
  change (if c.toNat ≤ 127 then _ else _ : List UInt8).all isDigitByte = _
  by_cases hascii : c.toNat ≤ 127
  · rw [if_pos hascii, List.all_cons, List.all_nil, Bool.and_true]
    exact isDigitByte_ofNat (Nat.lt_of_le_of_lt hascii (by decide))
  · -- the first of several bytes is above those of the digits
    have hnone : decide (48 ≤ c.toNat ∧ c.toNat ≤ 57) = false := decide_eq_false (by omega)
    rw [if_neg hascii, hnone]
    split
    next =>
      rw [List.all_cons, isDigitByte_ofNat (by omega), decide_eq_false (by omega), Bool.false_and]
    next =>
      split <;>
        rw [List.all_cons, isDigitByte_ofNat (by omega), decide_eq_false (by omega), Bool.false_and]

/-- A text is digits just if all its bytes are. -/
theorem all_isDigitByte_bytes (cs : List Char) :
    (bytes cs).all isDigitByte = Digits.allDigits cs := by
  rw [bytes, List.all_flatMap, Digits.allDigits]
  exact congrArg (cs.all ·) (funext all_isDigitByte)

/-- Digits are one byte each. -/
theorem length_bytes {cs : List Char} (h : Digits.allDigits cs = true) :
    (bytes cs).length = cs.length := by
  induction cs with
  | nil => rfl
  | cons c cs ih =>
    obtain ⟨hc, hcs⟩ := Digits.allDigits_cons.1 h
    have hascii : c.toNat ≤ 127 := (Digits.isDigit_iff.1 hc).2.trans (by decide)
    have hone : (String.utf8EncodeChar c).length = 1 := by
      rw [String.utf8EncodeChar]
      change (if c.toNat ≤ 127 then _ else _ : List UInt8).length = 1
      rw [if_pos hascii]
      rfl
    rw [bytes, List.flatMap_cons, List.length_append, hone, List.length_cons, Nat.add_comm]
    exact congrArg (· + 1) (ih hcs)

/-- The parts of a text that is not refused by its bytes are digits, as they should be. -/
theorem refused_iff : (n.integer = [] ∨ 18 < (bytes n.fraction).length ∨
    (bytes n.integer ++ bytes n.fraction).all isDigitByte = false) ↔ ¬n.WellFormed := by
  rw [List.all_append, all_isDigitByte_bytes, all_isDigitByte_bytes, Numeral.WellFormed, precision]
  cases hinteger : Digits.allDigits n.integer with
  | false => simp
  | true =>
    cases hfraction : Digits.allDigits n.fraction with
    | false => simp
    | true =>
      rw [length_bytes hfraction]
      simp only [Bool.and_self, Bool.true_eq_false, or_false, and_self, and_true]
      rw [not_and_or, not_not, not_le]

/-! The whole part may not fit its word, scaled it may not fit, nor with the fraction added, and with
its sign put on it may not be in range. -/

/-- A number that fits a word is read into it. -/
theorem word?_eq_some {ds : List Char} (h : Digits.value ds < 2 ^ 256) :
    ∃ w, word? ds = some w ∧ w.toNat = Digits.value ds :=
  ⟨_, if_pos h, Nat.mod_eq_of_lt h⟩

/-- What overflows on the way is not in range in the end. -/
theorem ofWords_eq (negative : Bool) (integer fraction : BitVec 256) :
    ofWords negative integer fraction =
      ofRaw (if negative then -((integer.toNat * scale + fraction.toNat : Nat) : Int)
        else (integer.toNat * scale + fraction.toNat : Nat)) := by
  have hover (hlarge : wordSize ≤ integer.toNat * scale + fraction.toNat) :
      ofRaw (if negative then -((integer.toNat * scale + fraction.toNat : Nat) : Int)
        else (integer.toNat * scale + fraction.toNat : Nat)) = .error .overflow := by
    rw [wordSize] at hlarge
    refine ofRaw_eq_error_iff.2 ⟨rfl, ?_⟩
    rw [limit]
    split <;> omega
  have hscaled := umulOverflow_iff integer scaleWord
  rw [toNat_scaleWord] at hscaled
  rw [ofWords]
  by_cases hmul : BitVec.umulOverflow integer scaleWord = true
  · rw [if_pos hmul, hover ((not_lt.1 (hscaled.1 hmul)).trans (Nat.le_add_right _ _))]
  have hproduct := BitVec.toNat_mul_of_not_umulOverflow hmul
  rw [toNat_scaleWord] at hproduct
  rw [if_neg hmul]
  by_cases hadd : BitVec.uaddOverflow (integer * scaleWord) fraction = true
  · rw [if_pos hadd]
    rw [BitVec.uaddOverflow, decide_eq_true_iff, hproduct, ← wordSize_eq] at hadd
    exact (hover hadd).symm
  · rw [if_neg hadd, ofParts, BitVec.toNat_add_of_not_uaddOverflow hadd, hproduct]

/-- A fraction that is filled up with zeros denotes its part of the raw integer. -/
theorem value_rightpad (fraction : List Char) :
    Digits.value (fraction.rightpad 18 '0') =
      Digits.value fraction * Nat.pow 10 (precision - fraction.length) := by
  rw [List.rightpad, Digits.value_append, Digits.value_replicate_zero, List.length_replicate]
  rfl

/-- **Reading by bytes and words** is reading. -/
theorem parse_eq_words (s : String) : parse s = parseOnWords s := by
  rw [parse, parseOnWords]
  generalize Numeral.ofChars s.toList = n
  by_cases hformed : n.WellFormed
  · rw [if_neg (refused_iff.not_left.2 hformed), wordSize_eq]
    obtain ⟨hne, hlength, hdigits, hfraction⟩ := hformed
    by_cases hinteger : Digits.value n.integer < 2 ^ 256
    · have hpadded : Digits.allDigits (n.fraction.rightpad 18 '0') = true :=
        Digits.allDigits_append.2 ⟨hfraction, by simp [Digits.allDigits]⟩
      have hsmall : Digits.value (n.fraction.rightpad 18 '0') < 2 ^ 256 := by
        refine (Digits.value_lt hpadded).trans ?_
        rw [List.rightpad, List.length_append, List.length_replicate,
          Nat.add_sub_cancel' (show n.fraction.length ≤ 18 from hlength)]
        decide
      obtain ⟨integer, hinteger', hw⟩ := word?_eq_some hinteger
      obtain ⟨fraction, hfraction', hw'⟩ := word?_eq_some hsmall
      rw [if_pos ⟨⟨hne, hlength, hdigits, hfraction⟩, hinteger⟩, hinteger', hfraction']
      simp only
      rw [ofWords_eq, hw, hw', value_rightpad]
      rfl
    · rw [if_neg fun h => hinteger h.2, word?, if_neg hinteger]
  · rw [if_neg fun h => hformed h.1, if_pos (refused_iff.2 hformed)]

/-- **All texts by what is read from them.**

* A decimal is read from the texts that denote it. A text denotes a decimal if it spells a numeral
  with its number in range.
* A numeral with a whole part below `2 ^ 256` and its number out of range is an overflow.
* All other texts, which spell no numeral or one with a larger whole part, are malformed, and the
  report holds the text. There is no other failure.
* On bytes and words reading comes to the same. -/
theorem parse_classifies (s : String) :
    (∀ d, parse s = .ok d ↔ ∃ n, Numeral.Spells s.toList n ∧ n.value = d.value) ∧
    ((∃ d, parse s = .ok d) ↔ ∃ n, Numeral.Spells s.toList n ∧ n.InRange) ∧
    (parse s = .error .overflow ↔
      ∃ n, Numeral.Spells s.toList n ∧ Digits.value n.integer < 2 ^ 256 ∧ ¬n.InRange) ∧
    (parse s = .error (.malformedDecimal s) ↔
      ¬∃ n, Numeral.Spells s.toList n ∧ Digits.value n.integer < 2 ^ 256) ∧
    (∀ e, parse s = .error e → e = .overflow ∨ e = .malformedDecimal s) ∧
    parse s = parseOnWords s :=
  ⟨fun _ => parse_eq_ok_iff, exists_parse_iff, parse_eq_overflow_iff, parse_eq_malformed_iff,
    fun _ => parse_eq_error, parse_eq_words s⟩

/-- Nothing behind the point, a second sign, a second point, and whole parts on both sides of the
limit of their word. -/
example :
    parse "-05." = .ok ⟨-5_000_000_000_000_000_000, by decide, by decide⟩ ∧
    parse "--5" = .error (.malformedDecimal "--5") ∧
    parse "1.2.3" = .error (.malformedDecimal "1.2.3") ∧
    parse (toString (2 ^ 256 - 1)) = .error .overflow ∧
    parse (toString (2 ^ 256)) = .error (.malformedDecimal (toString (2 ^ 256))) := by
  decide +kernel

end Dec

end RangeLedger
