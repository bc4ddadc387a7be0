import RangeLedger.Config
import RangeLedger.Ledger.Error
import RangeLedger.Pool
import RangeLedger.Tick.Price

/-!
# What a pool admits

A range is admitted when its boundaries are multiples of the spacing of the pool, lie within the
configured ticks and are in order. The first deposit gives the pool its price: that of the second
token over the first in the offered amounts, as a square root rounded down and as a tick.

## Main results

* `checkRange_eq_ok_iff`: which ranges are admitted.
* `checkIncentives_eq_ok_iff`: which sets of incentives are accepted.
-/

namespace RangeLedger.Pool

/-- The spacing, as far as a tick can be compared with it. -/
def tickStep (p : Pool) : Int := min p.spacing.val 0x7FFF_FFFF_FFFF_FFFF

/-- Whether a tick may bound a position in this pool. -/
def OnGrid (p : Pool) (t : Tick) : Prop := p.tickStep ≠ 0 ∧ p.tickStep ∣ t.val

instance (p : Pool) (t : Tick) : Decidable (p.OnGrid t) := by
  unfold OnGrid
  infer_instance

/-- Admits a range, or says what is wrong with it. -/
def checkRange (p : Pool) (c : Config) (lower upper : Tick) : Except LedgerError Unit :=
  if ¬(p.OnGrid lower ∧ p.OnGrid upper) then .error (.offSpacing lower upper p.spacing)
  else if lower < c.minTick ∨ c.maxTick ≤ lower then .error (.invalidTick lower .lower)
  else if c.maxTick < upper ∨ upper ≤ c.minTick then .error (.invalidTick upper .upper)
  else if upper ≤ lower then .error (.invalidRange lower upper)
  else .ok ()

/-- Gives the pool its first price, that of the offered amounts. -/
def openWith (p : Pool) (amount0 amount1 : Amount) : Except LedgerError Pool :=
  if amount0.val = 0 ∨ amount1.val = 0 then .error (.initialLiquidityZero amount0 amount1)
  else Except.mapError LedgerError.math do
    let price ← (Dec.ofAmount amount1).quo (Dec.ofAmount amount0)
    let root ← price.sqrt
    let tick ← Tick.ofPrice price
    .ok { p with sqrtPrice := root, tick := tick }

/-- Accepts a set of incentives that all run on the pool, or names the lowest one that does not. -/
def checkIncentives (p : Pool) (ids : OrderedSet IncentiveId) : Except LedgerError Unit :=
  match ids.toList.find? fun id => !p.incentives.contains id with
  | some id => .error (.incentiveNotFound p.id id)
  | none => .ok ()

/-- The ranges that a pool admits. -/
theorem checkRange_eq_ok_iff {p : Pool} {c : Config} {lower upper : Tick} :
    p.checkRange c lower upper = .ok () ↔
      p.OnGrid lower ∧ p.OnGrid upper ∧ c.minTick ≤ lower ∧ lower < upper ∧ upper ≤ c.maxTick := by
  unfold checkRange
  simp only [Bounded.le_def, Bounded.lt_def]
  by_cases hgrid : p.OnGrid lower ∧ p.OnGrid upper
  · rw [if_neg (not_not_intro hgrid)]
    simp only [hgrid.1, hgrid.2, true_and]
    split
    · simp only [reduceCtorEq, false_iff]
      omega
    split
    · simp only [reduceCtorEq, false_iff]
      omega
    split
    · simp only [reduceCtorEq, false_iff]
      omega
    · simp only [true_iff]
      omega
  · simp only [hgrid, not_false_eq_true, if_true, reduceCtorEq, false_iff]
    exact fun h => hgrid ⟨h.1, h.2.1⟩

/-- The sets of incentives that a pool accepts. -/
theorem checkIncentives_eq_ok_iff {p : Pool} {ids : OrderedSet IncentiveId} :
    p.checkIncentives ids = .ok () ↔ ∀ id ∈ ids.toList, p.incentives.contains id = true := by
  rw [checkIncentives]
  cases hmissing : ids.toList.find? fun id => !p.incentives.contains id with
  | none => simpa using hmissing
  | some id =>
    have hid := List.mem_of_find?_eq_some hmissing
    have hnot : p.incentives.contains id = false := by simpa using List.find?_some hmissing
    simp only [reduceCtorEq, false_iff]
    intro hall
    rw [hall id hid] at hnot
    cases hnot

end RangeLedger.Pool
