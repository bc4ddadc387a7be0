import RangeLedger.Text.Digits
import Mathlib

/-!
# Digits and what they denote

A list of digits is determined by its length and its value. So for every number there is one list
of each length that is long enough, and just one without a superfluous leading zero: the digits
that are written for it.

## Main results

* `value_append`: the value of a list of digits in two parts.
* `value_lt`: a list of digits denotes less than the power of ten for its length.
* `eq_of_value_eq`: two lists of one length with the same value are equal.
* `padded_value`, `ofNat_value`: the digits of a number, with and without zeros in front.
* `ofNat_eq_of_head?`: what is written for a number has no superfluous leading zero.
-/

namespace RangeLedger.Digits

variable {ds ds' : List Char} {c c' : Char}

/-- Two texts are digits together just if each of them is. -/
theorem allDigits_append :
    allDigits (ds ++ ds') = true ↔ allDigits ds = true ∧ allDigits ds' = true := by
  rw [allDigits, List.all_append, Bool.and_eq_true]
  exact Iff.rfl

/-- A text is digits just if its first character and the rest are. -/
theorem allDigits_cons : allDigits (c :: ds) = true ↔ c.isDigit = true ∧ allDigits ds = true := by
  rw [allDigits, List.all_cons, Bool.and_eq_true]
  exact Iff.rfl

/-- A text of one digit is digits. -/
theorem allDigits_singleton : allDigits [c] = true ↔ c.isDigit = true :=
  allDigits_cons.trans (and_iff_left rfl)

/-- A digit is one of ten characters in a row. -/
theorem isDigit_iff : c.isDigit = true ↔ '0'.toNat ≤ c.toNat ∧ c.toNat ≤ '9'.toNat := by
  rw [Char.isDigit, Bool.and_eq_true, decide_eq_true_iff, decide_eq_true_iff]
  exact Iff.rfl

/-- A character that is no digit does not stand in a list of digits. -/
theorem notMem_of_allDigits (h : allDigits ds = true) (hc : c.isDigit = false) : c ∉ ds := fun hmem => by
  rw [List.all_eq_true.1 h c hmem] at hc
  cases hc

/-! ### Values -/

/-- The value of a digit by its place among the characters. -/
theorem value_singleton (c : Char) : value [c] = c.toNat - '0'.toNat := by
  rw [value, Nat.ofDigitChars_cons, Nat.ofDigitChars_nil, Nat.mul_zero, Nat.zero_add]

/-- The value of a list of digits in two parts. -/
theorem value_append (ds ds' : List Char) :
    value (ds ++ ds') = value ds * 10 ^ ds'.length + value ds' := by
  rw [value, Nat.ofDigitChars_append, Nat.ofDigitChars_eq_ofDigitChars_zero, Nat.mul_comm]
  rfl

/-- Zeros have no value. -/
theorem value_replicate_zero (n : Nat) : value (List.replicate n '0') = 0 := by
  rw [value, Nat.ofDigitChars_replicate_zero, Nat.mul_zero]

/-- A digit is less than ten. -/
theorem value_singleton_lt (h : c.isDigit = true) : value [c] < 10 := by
  have hrange := isDigit_iff.1 h
  simp only [Char.reduceToNat] at hrange
  rw [value_singleton]
  simp only [Char.reduceToNat]
  omega

/-- A list of digits denotes less than the power of ten for its length. -/
theorem value_lt (h : allDigits ds = true) : value ds < 10 ^ ds.length := by
  induction ds using List.reverseRecOn with
  | nil => exact Nat.one_pos
  | append_singleton ds c ih =>
    obtain ⟨hds, hc⟩ := allDigits_append.1 h
    have hlast := value_singleton_lt (allDigits_singleton.1 hc)
    have hrest := ih hds
    rw [value_append, List.length_append, List.length_singleton, pow_succ]
    omega

/-! ### What determines a list of digits -/

/-- Two digits of the same value are the same. -/
theorem eq_of_value_singleton_eq (h : c.isDigit = true) (h' : c'.isDigit = true)
    (hvalue : value [c] = value [c']) : c = c' := by
  have hrange := isDigit_iff.1 h
  have hrange' := isDigit_iff.1 h'
  rw [value_singleton, value_singleton] at hvalue
  exact Char.toNat_inj.1 (by omega)

/-- **Two lists of digits of one length with the same value are equal.** -/
theorem eq_of_value_eq (h : allDigits ds = true) (h' : allDigits ds' = true)
    (hlength : ds.length = ds'.length) (hvalue : value ds = value ds') : ds = ds' := by
  induction ds using List.reverseRecOn generalizing ds' with
  | nil => exact (List.length_eq_zero_iff.1 hlength.symm).symm
  | append_singleton ds c ih =>
    cases ds' using List.reverseRecOn with
    | nil => simp at hlength
    | append_singleton ds' c' =>
      obtain ⟨hds, hc⟩ := allDigits_append.1 h
      obtain ⟨hds', hc'⟩ := allDigits_append.1 h'
      rw [allDigits_singleton] at hc hc'
      -- the last digits are the remainders by ten, and what is in front of them the quotients
      have hlast := value_singleton_lt hc
      have hlast' := value_singleton_lt hc'
      simp only [value_append, List.length_singleton, pow_one] at hvalue
      simp only [List.length_append, List.length_singleton, Nat.add_right_cancel_iff] at hlength
      rw [ih hds hds' hlength (by omega), eq_of_value_singleton_eq hc hc' (by omega)]

/-! ### The digits of a number -/

/-- A list of digits is what its value is padded to. -/
theorem padded_value (h : allDigits ds = true) (hne : ds ≠ []) : padded ds.length (value ds) = ds :=
  eq_of_value_eq (allDigits_padded _ _) h
    (length_padded (List.length_pos_iff.2 hne) (value_lt h)) (value_padded _ _)

/-- A list of digits without a superfluous leading zero is what is written for its value. -/
theorem ofNat_value (h : allDigits ds = true) (hne : ds ≠ [])
    (hzero : ds.head? = some '0' → ds = ['0']) : ofNat (value ds) = ds := by
  have hpadded := padded_value h hne
  rw [padded, List.leftpad] at hpadded
  by_cases hexact : ds.length - (ofNat (value ds)).length = 0
  · rwa [hexact, List.replicate_zero, List.nil_append] at hpadded
  · -- a digit that is padded would be a leading zero
    obtain ⟨k, hk⟩ := Nat.exists_eq_succ_of_ne_zero hexact
    have hhead : ds.head? = some '0' := by
      rw [← hpadded, hk, List.replicate_succ]
      rfl
    rw [hzero hhead]
    rfl

/-- What is written for a number has no superfluous leading zero. -/
theorem ofNat_eq_of_head? {n : Nat} (h : (ofNat n).head? = some '0') : ofNat n = ['0'] := by
  obtain ⟨rest, hrest⟩ := List.head?_eq_some_iff.1 h
  by_cases hne : rest = []
  · rw [hrest, hne]
  · -- without the zero there would be fewer digits for the same number
    have hdigits : allDigits rest = true := by
      have hall := allDigits_ofNat n
      rw [hrest] at hall
      exact (allDigits_cons.1 hall).2
    have hvalue : n = value rest := by
      have hsplit := value_append ['0'] rest
      rwa [List.singleton_append, ← hrest, value_ofNat, value_singleton, Nat.sub_self, Nat.zero_mul,
        Nat.zero_add] at hsplit
    have hlength : (ofNat n).length ≤ rest.length :=
      (Nat.length_toDigits_le_iff (by decide) (List.length_pos_iff.2 hne)).2
        (hvalue ▸ value_lt hdigits)
    rw [hrest, List.length_cons] at hlength
    omega

end RangeLedger.Digits
