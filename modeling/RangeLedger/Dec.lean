import RangeLedger.Basic

/-!
# Decimals

A decimal is an integral multiple of `10 ^ -18`, held as that multiple in the range of a signed
word of 256 bits. Liquidity, square roots of prices and the time-weighted accumulators are all
decimals; every operation on them is exact integer arithmetic followed by one rounding.

## Main results

* `ext_iff`: a decimal is determined by its raw integer.
* `ofRaw?_eq_some_iff`: an integer is the raw value of a decimal exactly when it is in range.
-/

namespace RangeLedger

/-- The first integer above the range of a signed word of 256 bits. -/
def Dec.limit : Int := 0x8000_0000_0000_0000_0000_0000_0000_0000_0000_0000_0000_0000_0000_0000_0000_0000

/-- A multiple of `10 ^ -18` in the range of a signed word of 256 bits. -/
@[ext]
structure Dec where
  /-- The value times `10 ^ 18`. -/
  raw : Int
  neg_limit_le : -Dec.limit ≤ raw
  lt_limit : raw < Dec.limit
deriving DecidableEq

namespace Dec

/-- Number of fractional digits. -/
def precision : Nat := 18

/-- The raw integer of one. -/
def scale : Nat := 1_000_000_000_000_000_000

/-- Number of values of a word of 256 bits. -/
def wordSize : Nat :=
  0x1_0000_0000_0000_0000_0000_0000_0000_0000_0000_0000_0000_0000_0000_0000_0000_0000

/-- The decimal with a given raw integer, if the integer is in range. -/
def ofRaw? (n : Int) : Option Dec :=
  if h : -limit ≤ n ∧ n < limit then some ⟨n, h.1, h.2⟩ else none

/-- The decimal whose raw integer is congruent to `n` modulo `2 ^ 256`. -/
def wrap (n : Int) : Dec :=
  ⟨n.bmod wordSize, by have := @Int.le_bmod n wordSize (by decide); simpa [wordSize, limit] using this,
    by have := @Int.bmod_lt n wordSize (by decide); simpa [wordSize, limit] using this⟩

/-- Zero. -/
def zero : Dec := ⟨0, by decide, by decide⟩

/-- One. -/
def one : Dec := ⟨1_000_000_000_000_000_000, by decide, by decide⟩

instance : Inhabited Dec := ⟨zero⟩

/-- A whole number of token units as a decimal. -/
def ofAmount (n : Amount) : Dec :=
  ⟨n.val * 1_000_000_000_000_000_000, by have := n.lo_le; unfold limit; omega,
    by have := n.le_hi; unfold limit; omega⟩

/-- A whole number of 128 bits as a decimal. -/
def ofInt
    (n : Bounded (-0x8000_0000_0000_0000_0000_0000_0000_0000)
      0x7FFF_FFFF_FFFF_FFFF_FFFF_FFFF_FFFF_FFFF) : Dec :=
  ⟨n.val * 1_000_000_000_000_000_000, by have := n.lo_le; unfold limit; omega,
    by have := n.le_hi; unfold limit; omega⟩

/-- A word of 64 bits taken as the raw integer. -/
def ofRawWord (n : Word64) : Dec :=
  ⟨n.val, by have := n.lo_le; unfold limit; omega,
    by have := n.le_hi; unfold limit; omega⟩

/-- Whether the value is zero. -/
def isZero (a : Dec) : Bool := a.raw == 0

/-- Whether the value is below zero. -/
def isNegative (a : Dec) : Bool := decide (a.raw < 0)

/-- Whether the value is above zero. -/
def isPositive (a : Dec) : Bool := decide (0 < a.raw)

/-! ### Order -/

instance : LE Dec := ⟨fun a b => a.raw ≤ b.raw⟩
instance : LT Dec := ⟨fun a b => a.raw < b.raw⟩

instance (a b : Dec) : Decidable (a ≤ b) := inferInstanceAs (Decidable (a.raw ≤ b.raw))
instance (a b : Dec) : Decidable (a < b) := inferInstanceAs (Decidable (a.raw < b.raw))

instance : Ord Dec := ⟨compareOn raw⟩

instance : Min Dec := ⟨fun a b => if a ≤ b then a else b⟩

/-- Decimals are ordered by their raw values. -/
theorem le_def {a b : Dec} : a ≤ b ↔ a.raw ≤ b.raw := Iff.rfl

/-- Strict order is that of the raw values too. -/
theorem lt_def {a b : Dec} : a < b ↔ a.raw < b.raw := Iff.rfl

/-! ### Raw integers -/

/-- Zero has no smallest units. -/
@[simp] theorem raw_zero : zero.raw = 0 := rfl

/-- A decimal is read back from its raw value. -/
@[simp] theorem ofRaw?_raw (a : Dec) : ofRaw? a.raw = some a :=
  dif_pos ⟨a.neg_limit_le, a.lt_limit⟩

/-- A raw value in range is that of one decimal. -/
theorem ofRaw?_eq_some_iff {n : Int} {a : Dec} : ofRaw? n = some a ↔ a.raw = n := by
  constructor
  · intro h
    unfold ofRaw? at h
    split at h
    · injection h with h; subst h; rfl
    · cases h
  · rintro rfl
    exact ofRaw?_raw a

/-- A raw value is refused when it is out of range on either side. -/
theorem ofRaw?_eq_none_iff {n : Int} : ofRaw? n = none ↔ n < -limit ∨ limit ≤ n := by
  unfold ofRaw?
  split <;> simp <;> omega

/-- Wrapping leaves an integer in range as it is. -/
theorem raw_wrap {n : Int} (h : -limit ≤ n) (h' : n < limit) : (wrap n).raw = n := by
  simp only [wrap]
  unfold limit at h h'
  apply Int.bmod_eq_of_le <;> simp [wordSize] <;> omega

end Dec

end RangeLedger
