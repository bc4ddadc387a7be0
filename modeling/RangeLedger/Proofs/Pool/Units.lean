import RangeLedger.Proofs.Liquidity.Units
import RangeLedger.Proofs.Operation.Outcome
import RangeLedger.Proofs.Tick.Prices

/-!
# What a pool takes and pays

The current tick of a pool splits a range in two: below the price a position holds the second token,
above it the first. This module gives the units that a liquidity is worth in each token at the
current price (`Pool.units`), and shows that a deposit takes just these units for the liquidity on
its receipt, and a withdrawal pays just these units for the liquidity that it asks for. Merging and
splitting liquidity thus changes what it is worth by one unit of each token at most.

## Main results

* `Operation.quote_units`, `Operation.release_units`: deposits and withdrawals in whole units.
* `Pool.units_merge`: the units of a sum are off by one at most.
-/

namespace RangeLedger

namespace Pool

variable {p : Pool} {lower upper : Tick}

/-- Where the current tick splits a range, as a raw square root of a price. -/
def split (p : Pool) (lower upper : Tick) : Int :=
  if p.tick < lower then Tick.sqrtPriceRaw lower.val
  else if p.tick < upper then p.sqrtPrice.raw
  else Tick.sqrtPriceRaw upper.val

/-- Below its range a pool splits it at the lower boundary. -/
theorem split_of_below (h : p.tick < lower) :
    p.split lower upper = Tick.sqrtPriceRaw lower.val := if_pos h

/-- Inside its range a pool splits it at the price. -/
theorem split_of_inRange (h : p.InRange lower upper) : p.split lower upper = p.sqrtPrice.raw := by
  have hlower : ¬p.tick < lower := Int.not_lt.2 h.1
  rw [split, if_neg hlower, if_pos h.2]

/-- Above its range a pool splits it at the upper boundary. -/
theorem split_of_above (hlower : ¬p.tick < lower) (hupper : ¬p.tick < upper) :
    p.split lower upper = Tick.sqrtPriceRaw upper.val := by
  rw [split, if_neg hlower, if_neg hupper]

/-- The units of a token that a liquidity over a range is worth at the current price. -/
def units (p : Pool) (side : Side) (lower upper : Tick) (liquidity : Nat) : Nat :=
  match side with
  | .token0 =>
    Liquidity.units0 liquidity (p.split lower upper) (Tick.sqrtPriceRaw upper.val)
  | .token1 =>
    Liquidity.units1 liquidity (Tick.sqrtPriceRaw lower.val) (p.split lower upper)

/-- The units depend on the price alone. -/
theorem units_congr {p' : Pool} (htick : p'.tick = p.tick) (hsqrt : p'.sqrtPrice = p.sqrtPrice) :
    p'.units = p.units := by
  funext side lower upper liquidity
  simp only [units, split]
  rw [htick, hsqrt]

/-- No liquidity has no units. -/
@[simp] theorem units_zero (p : Pool) (side : Side) (lower upper : Tick) :
    p.units side lower upper 0 = 0 := by
  cases side with
  | token0 => exact Liquidity.units0_zero _ _
  | token1 => exact Liquidity.units1_zero _ _

/-- More liquidity has no fewer units. -/
theorem units_mono (p : Pool) (side : Side) (lower upper : Tick) {l l' : Nat} (h : l ≤ l') :
    p.units side lower upper l ≤ p.units side lower upper l' := by
  cases side with
  | token0 => exact Liquidity.units0_mono h _ _
  | token1 => exact Liquidity.units1_mono h _ _

/-- **The units of a sum** are those of its parts, but for one. -/
theorem units_merge (p : Pool) (side : Side) (lower upper : Tick) (l l' : Nat) :
    p.units side lower upper (l + l') ≤
        p.units side lower upper l + p.units side lower upper l' + 1 ∧
      p.units side lower upper l + p.units side lower upper l' ≤
        p.units side lower upper (l + l') + 1 := by
  cases side with
  | token0 => exact Liquidity.units0_merge _ _ _ _
  | token1 => exact Liquidity.units1_merge _ _ _ _

/-- The amounts of a change of liquidity, in whole units of the magnitude. -/
theorem units_of_amounts {a b delta : Dec} {amounts : Dec × Dec}
    (ha : a.raw = Tick.sqrtPriceRaw lower.val) (hb : b.raw = Tick.sqrtPriceRaw upper.val)
    (h : p.amounts lower upper a b delta = .ok amounts) :
    amounts.1.raw.natAbs / Dec.scale = p.units .token0 lower upper delta.raw.natAbs ∧
      amounts.2.raw.natAbs / Dec.scale = p.units .token1 lower upper delta.raw.natAbs := by
  rw [Pool.amounts] at h
  simp only [units, ← ha, ← hb]
  split at h
  next hin =>
    obtain ⟨x, hx, h⟩ := bind_eq_ok_iff.1 h
    obtain ⟨y, hy, h⟩ := bind_eq_ok_iff.1 h
    cases h
    rw [split_of_inRange hin]
    exact ⟨Liquidity.natAbs_amount0 hx,
      (Liquidity.natAbs_amount1 hy).trans (Liquidity.units1_comm _ _ _)⟩
  next hout =>
    split at h
    next hbelow =>
      obtain ⟨x, hx, h⟩ := bind_eq_ok_iff.1 h
      cases h
      rw [split_of_below hbelow, ← ha, Liquidity.units1_self]
      exact ⟨Liquidity.natAbs_amount0 hx, Nat.zero_div _⟩
    next habove =>
      obtain ⟨y, hy, h⟩ := bind_eq_ok_iff.1 h
      cases h
      have hupper : ¬p.tick < upper := fun hlt => hout ⟨Int.not_lt.1 habove, hlt⟩
      rw [split_of_above habove hupper, ← hb, Liquidity.units0_self]
      exact ⟨Nat.zero_div _, Liquidity.natAbs_amount1 hy⟩

end Pool

namespace Operation

variable {p : Pool}

/-- **A deposit takes** the units that the liquidity on its receipt is worth. -/
theorem quote_units {d : Deposit} {r : Receipt} (h : quote p d = .ok r) :
    r.amount0.toNat = p.units .token0 d.lower d.upper r.liquidity.raw.toNat ∧
      r.amount1.toNat = p.units .token1 d.lower d.upper r.liquidity.raw.toNat := by
  obtain ⟨a, b, amounts, ha, hb, -, hpositive, hamounts, h0, h1, -, -⟩ := quote_eq_ok_iff.1 h
  obtain ⟨hunits0, hunits1⟩ := Pool.units_of_amounts (Tick.sqrtPrice_eq_ok_iff.1 ha).2.1
    (Tick.sqrtPrice_eq_ok_iff.1 hb).2.1 hamounts
  have habs : r.liquidity.raw.natAbs = r.liquidity.raw.toNat := by omega
  rw [Dec.toNat_truncate h0, Dec.toNat_truncate h1, hunits0, hunits1, habs]
  exact ⟨rfl, rfl⟩

/-- **A withdrawal pays** the units that the liquidity that it asks for is worth. -/
theorem release_units {w : Withdrawal} {amounts : Dec × Dec} {out : Amount × Amount}
    (hpositive : 0 < w.liquidity.raw) (h : release p w = .ok amounts)
    (h0 : amounts.1.abs.truncate = .ok out.1) (h1 : amounts.2.abs.truncate = .ok out.2) :
    out.1.toNat = p.units .token0 w.lower w.upper w.liquidity.raw.toNat ∧
      out.2.toNat = p.units .token1 w.lower w.upper w.liquidity.raw.toNat := by
  obtain ⟨a, b, ha, hb, hamounts⟩ := release_eq_ok_iff.1 h
  obtain ⟨hunits0, hunits1⟩ := Pool.units_of_amounts (Tick.sqrtPrice_eq_ok_iff.1 ha).2.1
    (Tick.sqrtPrice_eq_ok_iff.1 hb).2.1 hamounts
  have hlimit : -Dec.limit < w.liquidity.raw := by
    rw [Dec.limit]
    omega
  have habs : w.liquidity.neg.raw.natAbs = w.liquidity.raw.toNat := by
    rw [Dec.raw_neg hlimit]
    omega
  rw [Dec.toNat_truncate_abs h0, Dec.toNat_truncate_abs h1, hunits0, hunits1, habs]
  exact ⟨rfl, rfl⟩

end Operation

end RangeLedger
