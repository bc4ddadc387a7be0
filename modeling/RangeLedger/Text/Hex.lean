/-!
# Hexadecimal digits

Bytes and bit patterns are written with two hexadecimal digits a byte, the lower-case ones where
nothing else is said. Readers accept both cases.
-/

namespace RangeLedger.Hex

/-- The lower-case digit of a number below sixteen. -/
def digit (n : Nat) : Char := Nat.digitChar n

/-- The number that a hexadecimal digit of either case stands for. -/
def digitValue? (c : Char) : Option Nat :=
  if c.isDigit then some (c.toNat - '0'.toNat)
  else if 'a' ≤ c ∧ c ≤ 'f' then some (c.toNat - 'a'.toNat + 10)
  else if 'A' ≤ c ∧ c ≤ 'F' then some (c.toNat - 'A'.toNat + 10)
  else none

/-- A natural number below `16 ^ width` as exactly `width` digits. -/
def ofNat : (width n : Nat) → List Char
  | 0, _ => []
  | width + 1, n => ofNat width (n / 16) ++ [digit (n % 16)]

/-- The number that a list of digits denotes; `none` if one of them is no digit. -/
def value? (cs : List Char) : Option Nat :=
  cs.foldl (fun acc c => acc.bind fun n => (digitValue? c).map (16 * n + ·)) (some 0)

/-- As many digits are written as were asked for. -/
@[simp] theorem length_ofNat (width n : Nat) : (ofNat width n).length = width := by
  induction width generalizing n with
  | zero => rfl
  | succ width ih => simp [ofNat, ih]

/-- A hexadecimal digit is read back. -/
theorem digitValue?_digit {n : Nat} (h : n < 16) : digitValue? (digit n) = some n := by
  match n with
  | 0 | 1 | 2 | 3 | 4 | 5 | 6 | 7 | 8 | 9 | 10 | 11 | 12 | 13 | 14 | 15 => rfl
  | n + 16 => omega

/-- Written digits read back as the number. -/
theorem value?_ofNat (width n : Nat) : value? (ofNat width n) = some (n % Nat.pow 16 width) := by
  induction width generalizing n with
  | zero => simp [ofNat, value?, Nat.mod_one]
  | succ width ih =>
    have ih := ih (n / 16)
    simp only [value?] at ih
    simp only [ofNat, value?, List.foldl_append, ih, List.foldl_cons, List.foldl_nil,
      Option.bind_some, digitValue?_digit (Nat.mod_lt n (by decide)), Option.map_some]
    have hpow : Nat.pow 16 (width + 1) = 16 * Nat.pow 16 width := Nat.mul_comm _ _
    rw [hpow, Nat.mod_mul, Nat.add_comm]

end RangeLedger.Hex
