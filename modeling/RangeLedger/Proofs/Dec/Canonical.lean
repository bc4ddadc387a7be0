import RangeLedger.Json.Values
import RangeLedger.Proofs.Dec.Numerals
import RangeLedger.Proofs.Json.Codecs

/-!
# The written form of a decimal is canonical

A number may be spelled in many ways: with zeros in front of it or behind it, without a point, and
zero with a minus sign as well. Of these one is canonical. It has no superfluous leading zero,
exactly eighteen digits behind the point, and a minus sign only if the number is negative. A decimal
is written in just this form, so what is written tells which decimal it was, and nothing is lost on
the way to a text and back, not even of the least decimal, whose magnitude is that of no other.

## Main results

* `Numeral.IsCanonical.unique`: canonical numerals with the same number are equal.
* `Dec.parse_toText`: the written form reads back.
* `Dec.canonical_toText`: the written form is canonical.
* `Dec.toText_canonical`: all of it, for texts that are read as well.
-/

namespace RangeLedger

namespace Numeral

variable {cs cs' : List Char} {n n' : Numeral}

/-- The numeral is the one that is chosen among those for its number. -/
structure IsCanonical (n : Numeral) : Prop where
  fraction : n.fraction.length = 18
  integer : n.integer.head? = some '0' → n.integer = ['0']
  sign : n.negative = true → n.value < 0

/-! ### Uniqueness -/

/-- Without its sign a number is not negative. -/
theorem absValue_nonneg (n : Numeral) : 0 ≤ n.absValue := by
  rw [absValue]
  positivity

/-- A canonical numeral has a minus sign just if its number is negative. -/
theorem IsCanonical.negative_iff (h : n.IsCanonical) : n.negative = true ↔ n.value < 0 := by
  refine ⟨h.sign, fun hlt => ?_⟩
  by_contra hpositive
  rw [value, if_neg hpositive] at hlt
  exact absurd n.absValue_nonneg (not_le.2 hlt)

/-- With eighteen digits behind the point the whole part and the fraction are quotient and remainder
of the magnitude. -/
theorem value_parts (hformed : n.WellFormed) (hlength : n.fraction.length = 18) :
    Digits.value n.integer = n.magnitude / Dec.scale ∧
      Digits.value n.fraction = n.magnitude % Dec.scale := by
  have hsmall := Digits.value_lt hformed.2.2.2
  have hmagnitude : n.magnitude = Digits.value n.integer * Dec.scale + Digits.value n.fraction := by
    rw [magnitude, hlength]
    exact congrArg _ (Nat.mul_one _)
  rw [hlength, ← Dec.scale_eq] at hsmall
  rw [hmagnitude, Nat.mul_comm]
  exact ⟨by rw [Nat.mul_add_div Dec.scale_pos, Nat.div_eq_of_lt hsmall, Nat.add_zero],
    by rw [Nat.mul_add_mod, Nat.mod_eq_of_lt hsmall]⟩

/-- **Canonical numerals with the same number are equal.** -/
theorem IsCanonical.unique (h : n.IsCanonical) (h' : n'.IsCanonical) (hformed : n.WellFormed)
    (hformed' : n'.WellFormed) (hvalue : n.value = n'.value) : n = n' := by
  have hsign : n.negative = n'.negative := by
    rw [Bool.eq_iff_iff, h.negative_iff, h'.negative_iff, hvalue]
  have hraw : n.raw = n'.raw := by
    have hcast : (n.raw : ℚ) = n'.raw := by
      rw [raw_eq hformed.2.1, raw_eq hformed'.2.1, hvalue]
    exact_mod_cast hcast
  have hmagnitude : n.magnitude = n'.magnitude := by
    rw [raw, raw, hsign] at hraw
    split at hraw <;> omega
  obtain ⟨hinteger, hfraction⟩ := value_parts hformed h.fraction
  obtain ⟨hinteger', hfraction'⟩ := value_parts hformed' h'.fraction
  have hintegers : n.integer = n'.integer := by
    rw [← Digits.ofNat_value hformed.2.2.1 hformed.1 h.integer, hinteger, hmagnitude, ← hinteger',
      Digits.ofNat_value hformed'.2.2.1 hformed'.1 h'.integer]
  have hfractions : n.fraction = n'.fraction :=
    Digits.eq_of_value_eq hformed.2.2.2 hformed'.2.2.2 (h.fraction.trans h'.fraction.symm)
      (by rw [hfraction, hmagnitude, ← hfraction'])
  calc n = ⟨n.negative, n.integer, n.fraction⟩ := rfl
    _ = ⟨n'.negative, n'.integer, n'.fraction⟩ := by rw [hsign, hintegers, hfractions]
    _ = n' := rfl

/-- A numeral with digits behind its point is spelled in one way. -/
theorem Spells.eq_of_fraction (h : Spells cs n) (hne : n.fraction ≠ []) :
    cs = (if n.negative then ['-'] else []) ++ (n.integer ++ '.' :: n.fraction) := by
  cases h with
  | whole => exact absurd rfl hne
  | pointed => rfl
  | minus h =>
    cases h with
    | whole => exact absurd rfl hne
    | pointed => rfl

end Numeral

namespace Dec

variable {s s' : String} {x x' : ℚ} {d d' : Dec}

/-- The text denotes the number. -/
def Denotes (s : String) (x : ℚ) : Prop := ∃ n, Numeral.Spells s.toList n ∧ n.value = x

/-- The text is the canonical one for the number. -/
def Canonical (s : String) (x : ℚ) : Prop :=
  ∃ n, Numeral.Spells s.toList n ∧ n.IsCanonical ∧ n.value = x

/-- A text denotes one number at most. -/
theorem Denotes.unique (h : Denotes s x) (h' : Denotes s x') : x = x' := by
  obtain ⟨n, hspells, rfl⟩ := h
  obtain ⟨n', hspells', rfl⟩ := h'
  rw [hspells.unique hspells']

/-- **There is one canonical text for a number.** -/
theorem Canonical.unique (h : Canonical s x) (h' : Canonical s' x) : s = s' := by
  obtain ⟨n, hspells, hcanonical, rfl⟩ := h
  obtain ⟨n', hspells', hcanonical', hvalue⟩ := h'
  obtain rfl := hcanonical'.unique hcanonical hspells'.wellFormed hspells.wellFormed hvalue
  have hne : n'.fraction ≠ [] := List.ne_nil_of_length_pos (by rw [hcanonical.fraction]; decide)
  exact String.toList_inj.1 ((hspells.eq_of_fraction hne).trans (hspells'.eq_of_fraction hne).symm)

/-! ### Writing -/

/-- The numeral that is written for a decimal. -/
def numeral (a : Dec) : Numeral where
  negative := decide (a.raw < 0)
  integer := Digits.ofNat (a.raw.natAbs / scale)
  fraction := Digits.padded precision (a.raw.natAbs % scale)

/-- A decimal is written with all of its eighteen places. -/
theorem length_fraction_numeral (a : Dec) : a.numeral.fraction.length = 18 :=
  Digits.length_padded (by decide) (Nat.mod_lt _ scale_pos)

/-- The written form spells the numeral. -/
theorem spells_toText (a : Dec) : a.numeral.Spells a.toText.toList := by
  have hpointed : Numeral.Spells (a.numeral.integer ++ '.' :: a.numeral.fraction)
      ⟨false, a.numeral.integer, a.numeral.fraction⟩ :=
    .pointed Nat.toDigits_ne_nil (Digits.allDigits_ofNat _) (Digits.allDigits_padded _ _)
      (length_fraction_numeral a).le
  rw [toList_toText, chars, List.append_assoc]
  by_cases hsign : a.raw < 0
  · have hnumeral : a.numeral = ⟨true, a.numeral.integer, a.numeral.fraction⟩ := by
      rw [numeral, decide_eq_true hsign]
    rw [if_pos hsign, hnumeral]
    exact .minus hpointed
  · have hnumeral : a.numeral = ⟨false, a.numeral.integer, a.numeral.fraction⟩ := by
      rw [numeral, decide_eq_false hsign]
    rw [if_neg hsign, hnumeral]
    exact hpointed

/-- The numeral that is written has the raw integer of the decimal. -/
theorem raw_numeral (a : Dec) : a.numeral.raw = a.raw := by
  have hmagnitude : a.numeral.magnitude = a.raw.natAbs := by
    rw [Numeral.magnitude, length_fraction_numeral, numeral]
    simp only [Digits.value_ofNat, Digits.value_padded]
    exact (congrArg _ (Nat.mul_one _)).trans (Nat.div_add_mod' _ _)
  have hsign : a.numeral.negative = decide (a.raw < 0) := rfl
  rw [Numeral.raw, hmagnitude, hsign]
  by_cases hneg : a.raw < 0
  · rw [decide_eq_true hneg, if_pos rfl]
    omega
  · rw [decide_eq_false hneg]
    simp only [Bool.false_eq_true, if_false]
    omega

/-- The numeral that is written denotes the decimal. -/
theorem value_numeral (a : Dec) : a.numeral.value = a.value :=
  (value_eq_iff (spells_toText a)).2 (raw_numeral a).symm

/-- **What is written is canonical**: all places, no leading zeros, and a sign just where one is
due. -/
theorem isCanonical_numeral (a : Dec) : a.numeral.IsCanonical := by
  refine ⟨length_fraction_numeral a, Digits.ofNat_eq_of_head?, fun hsign => ?_⟩
  have hneg : a.raw < 0 := of_decide_eq_true hsign
  rw [value_numeral, value]
  exact div_neg_of_neg_of_pos (by exact_mod_cast hneg) (by norm_num)

/-- **The written form is canonical.** -/
theorem canonical_toText (a : Dec) : Canonical a.toText a.value :=
  ⟨a.numeral, spells_toText a, isCanonical_numeral a, value_numeral a⟩

/-- **The written form reads back.** -/
theorem parse_toText (a : Dec) : parse a.toText = .ok a :=
  parse_eq_ok_iff.2 ⟨a.numeral, spells_toText a, value_numeral a⟩

/-- A decimal is read back from what was encoded, its text. -/
theorem codec_lawful : codec.Lawful := Codec.ofText_lawful fun a => by rw [parse_toText]; rfl

/-- The text of a decimal is read as it is written. -/
theorem codec_legible : codec.Legible := Codec.ofText_legible _ _

/-- So does the one in JSON. -/
theorem read?_write_codec (a : Dec) : codec.read? (codec.write a) = some a :=
  codec_legible.roundTrips codec_lawful a

/-- What is read for a text is the number that the text denotes. -/
theorem denotes_of_parse (h : parse s = .ok d) : Denotes s d.value := parse_eq_ok_iff.1 h

/-- **Nothing is lost by writing a decimal.**

* What is written for a decimal reads back, as a text and in JSON.
* A text that is read denotes one number, and what is written for it then is the canonical text for
  that number: without a superfluous leading zero, with eighteen digits behind the point, and with a
  minus sign only if the number is negative.
* There is one canonical text for a number. So two texts that are read come to the same written form
  exactly if they denote the same number. -/
theorem toText_canonical :
    (∀ d : Dec, parse d.toText = .ok d ∧ codec.read? (codec.write d) = some d) ∧
    (∀ s d, parse s = .ok d → ∃ x, Denotes s x ∧ Canonical d.toText x) ∧
    (∀ x s s', Canonical s x → Canonical s' x → s = s') ∧
    ∀ s s' d d' x x', parse s = .ok d → parse s' = .ok d' → Denotes s x → Denotes s' x' →
      (d.toText = d'.toText ↔ x = x') := by
  refine ⟨fun d => ⟨parse_toText d, read?_write_codec d⟩,
    fun s d h => ⟨d.value, denotes_of_parse h, canonical_toText d⟩,
    fun x s s' h h' => h.unique h', fun s s' d d' x x' h h' hx hx' => ?_⟩
  obtain rfl := hx.unique (denotes_of_parse h)
  obtain rfl := hx'.unique (denotes_of_parse h')
  constructor
  · intro htext
    have hsame := parse_toText d
    rw [htext, parse_toText] at hsame
    rw [Except.ok.inj hsame]
  · intro hvalue
    exact (canonical_toText d).unique (hvalue ▸ canonical_toText d')

/-- Two texts for one number, with the written form of both. -/
theorem toText_canonical_sample :
    ∃ d x, parse "-05." = .ok d ∧ parse "-5.0" = .ok d ∧ Denotes "-05." x ∧
      Canonical d.toText x ∧ d.toText = "-5.000000000000000000" := by
  have h : parse "-05." = .ok ⟨-5_000_000_000_000_000_000, by decide, by decide⟩ := by
    decide +kernel
  obtain ⟨x, hdenotes, hcanonical⟩ := toText_canonical.2.1 _ _ h
  exact ⟨_, x, h, by decide +kernel, hdenotes, hcanonical, by decide +kernel⟩

end Dec

end RangeLedger
