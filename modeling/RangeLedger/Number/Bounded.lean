/-!
# Integers in an interval

`Bounded lo hi` is the type of the integers from `lo` to `hi`, both ends included. Ticks, pool and
incentive ids, token amounts and times are all of this form, each with the interval that its
written form allows, so a value that has been read is a value that can be written back.

## Main results

* `ofInt?_val`: a bounded integer is recovered from its value.
* `ofInt?_eq_some_iff`: an integer becomes a bounded one exactly when it lies in the interval.
-/

namespace RangeLedger

/-- An integer between `lo` and `hi`, both ends included. -/
@[ext]
structure Bounded (lo hi : Int) where
  /-- The integer itself. -/
  val : Int
  lo_le : lo ≤ val
  le_hi : val ≤ hi
deriving DecidableEq

namespace Bounded

variable {lo hi : Int}

/-- The bounded integer with the given value, if the value lies in the interval. -/
def ofInt? (n : Int) : Option (Bounded lo hi) :=
  if h : lo ≤ n ∧ n ≤ hi then some ⟨n, h.1, h.2⟩ else none

/-- The least integer of the interval. -/
def least (h : lo ≤ hi) : Bounded lo hi := ⟨lo, Int.le_refl lo, h⟩

/-- The nearest integer of the interval. -/
def clamp (h : lo ≤ hi) (n : Int) : Bounded lo hi :=
  ⟨max lo (min n hi), by omega, by omega⟩

/-- The value as a natural number; negative values read as zero. -/
def toNat (a : Bounded lo hi) : Nat := a.val.toNat

instance : LE (Bounded lo hi) := ⟨fun a b => a.val ≤ b.val⟩
instance : LT (Bounded lo hi) := ⟨fun a b => a.val < b.val⟩

instance (a b : Bounded lo hi) : Decidable (a ≤ b) := inferInstanceAs (Decidable (a.val ≤ b.val))
instance (a b : Bounded lo hi) : Decidable (a < b) := inferInstanceAs (Decidable (a.val < b.val))

instance : Ord (Bounded lo hi) := ⟨compareOn val⟩

instance : Std.TransOrd (Bounded lo hi) :=
  inferInstanceAs (Std.TransCmp (compareOn (val : Bounded lo hi → Int)))

instance : Std.LawfulEqOrd (Bounded lo hi) where
  eq_of_compare h := Bounded.ext (Std.LawfulEqOrd.eq_of_compare (α := Int) h)

/-- Bounded integers are ordered by their values. -/
theorem le_def {a b : Bounded lo hi} : a ≤ b ↔ a.val ≤ b.val := Iff.rfl

/-- Strict order is that of the values too. -/
theorem lt_def {a b : Bounded lo hi} : a < b ↔ a.val < b.val := Iff.rfl

/-- Comparing bounded integers is comparing their values. -/
theorem compare_def (a b : Bounded lo hi) : compare a b = compare a.val b.val := rfl

/-- A bounded integer is read back from its value. -/
@[simp] theorem ofInt?_val (a : Bounded lo hi) : ofInt? a.val = some a := by
  simp [ofInt?, a.lo_le, a.le_hi]

/-- An integer within the bounds is the value of one bounded integer. -/
theorem ofInt?_eq_some_iff {n : Int} {a : Bounded lo hi} : ofInt? n = some a ↔ a.val = n := by
  constructor
  · intro h
    unfold ofInt? at h
    split at h
    · injection h with h; subst h; rfl
    · cases h
  · rintro rfl
    exact ofInt?_val a

end Bounded

end RangeLedger
