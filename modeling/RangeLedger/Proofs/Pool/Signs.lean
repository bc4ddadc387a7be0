import RangeLedger.Proofs.Operation.Outcome

/-!
# Amounts of liquidity that is taken back

A withdrawal computes its amounts as a deposit does, from a liquidity with the other sign. Products
and quotients are rounded by magnitude, so the other sign passes through both roundings and comes
out on the amounts, whose magnitudes are what is paid. The one thing to watch is the least decimal,
which has no negative: no amount that is paid is the least decimal, and neither is the product that
a quotient is taken of, as it would be too large for that.

## Main results

* `Pool.amounts_neg`: liquidity with the other sign takes the amounts with the other sign.
* `Operation.release_of_quote`: a withdrawal of the liquidity of a deposit pays the amounts of the
  deposit, as long as the price does not move.
-/

namespace RangeLedger

namespace Dec

variable {mode : Rounding} {a b c : Dec}

/-- Zero has no other sign. -/
@[simp] theorem neg_zero : zero.neg = zero := Dec.ext (raw_neg (by decide))

/-- A product with the other sign has the other sign. -/
theorem mulWith_neg (ha : -limit < a.raw) (hc : -limit < c.raw) (h : a.mulWith mode b = .ok c) :
    a.neg.mulWith mode b = .ok c.neg := by
  rw [mulWith] at h ⊢
  rw [raw_neg ha, Int.natAbs_neg, Int.neg_mul, Rounding.signedQuotient_neg]
  split at h
  next hfits =>
    rw [ofRaw_eq_ok_iff] at h
    rw [if_pos hfits, ofRaw_eq_ok_iff, raw_neg hc, h]
  next => cases h

/-- A quotient with the other sign has the other sign. -/
theorem quoWith_neg (ha : -limit < a.raw) (hc : -limit < c.raw) (h : a.quoWith mode b = .ok c) :
    a.neg.quoWith mode b = .ok c.neg := by
  rw [quoWith] at h ⊢
  rw [raw_neg ha, Int.natAbs_neg, Int.neg_mul, Rounding.signedQuotient_neg]
  split at h
  next => cases h
  next hb =>
    split at h
    next hfits =>
      rw [ofRaw_eq_ok_iff] at h
      rw [if_neg hb, if_pos hfits, ofRaw_eq_ok_iff, raw_neg hc, h]
    next => cases h

/-- What can be divided is not the least decimal. -/
theorem neg_limit_lt_of_quoWith (h : a.quoWith mode b = .ok c) : -limit < a.raw := by
  rw [quoWith] at h
  split at h
  next => cases h
  next =>
    split at h
    next hfits =>
      rw [scale, wordSize] at hfits
      rw [limit]
      omega
    next => cases h

/-- What can be truncated to an amount is not negative. -/
theorem raw_nonneg_of_truncate {n : Amount} (h : a.truncate = .ok n) : 0 ≤ a.raw := by
  rw [truncate] at h
  split at h
  next => cases h
  next hneg => exact Int.not_lt.1 hneg

/-- The magnitude of a decimal that was given the other sign. -/
theorem abs_neg (h : 0 ≤ a.raw) : a.neg.abs = a := by
  have hlt := a.lt_limit
  have hneg : a.neg.raw = -a.raw := raw_neg (by rw [limit]; omega)
  refine Dec.ext ?_
  rw [abs, raw_wrap]
  · omega
  · rw [limit]
    omega
  · omega

end Dec

namespace Liquidity

variable {liquidity a b amount : Dec}

/-- Liquidity with the other sign takes the first token with the other sign. -/
theorem amount0_neg (hl : -Dec.limit < liquidity.raw) (hamount : -Dec.limit < amount.raw)
    (h : amount0 liquidity a b = .ok amount) : amount0 liquidity.neg a b = .ok amount.neg := by
  rw [amount0] at h ⊢
  obtain ⟨width, hwidth, h⟩ := bind_eq_ok_iff.1 h
  obtain ⟨product, hproduct, h⟩ := bind_eq_ok_iff.1 h
  obtain ⟨spread, hspread, h⟩ := bind_eq_ok_iff.1 h
  -- the product that is divided fits the word after scaling, so it has a negative
  have hleast := Dec.neg_limit_lt_of_quoWith h
  exact bind_eq_ok_iff.2 ⟨width, hwidth, bind_eq_ok_iff.2 ⟨product, hproduct,
    bind_eq_ok_iff.2 ⟨spread.neg, Dec.mulWith_neg hl hleast hspread,
      Dec.quoWith_neg hleast hamount h⟩⟩⟩

/-- Liquidity with the other sign takes the second token with the other sign. -/
theorem amount1_neg (hl : -Dec.limit < liquidity.raw) (hamount : -Dec.limit < amount.raw)
    (h : amount1 liquidity a b = .ok amount) : amount1 liquidity.neg a b = .ok amount.neg := by
  rw [amount1] at h ⊢
  obtain ⟨width, hwidth, h⟩ := bind_eq_ok_iff.1 h
  exact bind_eq_ok_iff.2 ⟨width, hwidth, Dec.mulWith_neg hl hamount h⟩

end Liquidity

/-- **Liquidity with the other sign takes the amounts with the other sign.** -/
theorem Pool.amounts_neg {p : Pool} {lower upper : Tick} {a b delta : Dec} {amounts : Dec × Dec}
    (hdelta : -Dec.limit < delta.raw) (h0 : -Dec.limit < amounts.1.raw)
    (h1 : -Dec.limit < amounts.2.raw) (h : p.amounts lower upper a b delta = .ok amounts) :
    p.amounts lower upper a b delta.neg = .ok (amounts.1.neg, amounts.2.neg) := by
  rw [Pool.amounts] at h ⊢
  split at h
  next hin =>
    obtain ⟨amount0, hamount0, h⟩ := bind_eq_ok_iff.1 h
    obtain ⟨amount1, hamount1, h⟩ := bind_eq_ok_iff.1 h
    cases h
    rw [if_pos hin]
    exact bind_eq_ok_iff.2 ⟨_, Liquidity.amount0_neg hdelta h0 hamount0,
      bind_eq_ok_iff.2 ⟨_, Liquidity.amount1_neg hdelta h1 hamount1, rfl⟩⟩
  next hout =>
    rw [if_neg hout]
    split at h
    next hbelow =>
      obtain ⟨amount0, hamount0, h⟩ := bind_eq_ok_iff.1 h
      cases h
      rw [if_pos hbelow, Dec.neg_zero]
      exact bind_eq_ok_iff.2 ⟨_, Liquidity.amount0_neg hdelta h0 hamount0, rfl⟩
    next habove =>
      obtain ⟨amount1, hamount1, h⟩ := bind_eq_ok_iff.1 h
      cases h
      rw [if_neg habove, Dec.neg_zero]
      exact bind_eq_ok_iff.2 ⟨_, Liquidity.amount1_neg hdelta h1 hamount1, rfl⟩

/-- The withdrawal of what a deposit created. -/
def Deposit.undo (d : Deposit) (r : Receipt) : Withdrawal where
  pool := d.pool
  owner := d.owner
  lower := d.lower
  upper := d.upper
  liquidity := r.liquidity
  incentives := d.incentives

/-- Taking a deposit back is about the same position. -/
@[simp] theorem Deposit.undo_key (d : Deposit) (r : Receipt) : (d.undo r).key = d.key := rfl

/-- **The liquidity of a deposit pays the amounts of the deposit**, at the price at which it was
created, whatever the active liquidity then is. -/
theorem Operation.release_of_quote {p : Pool} {d : Deposit} {r : Receipt} (active : Dec)
    (h : quote p d = .ok r) :
    ∃ amounts, release { p with liquidity := active } (d.undo r) = .ok amounts ∧
      amounts.1.abs.truncate = .ok r.amount0 ∧ amounts.2.abs.truncate = .ok r.amount1 := by
  obtain ⟨a, b, amounts, ha, hb, -, hpositive, hamounts, h0, h1, -, -⟩ := quote_eq_ok_iff.1 h
  have hnonneg0 := Dec.raw_nonneg_of_truncate h0
  have hnonneg1 := Dec.raw_nonneg_of_truncate h1
  have hneg := Pool.amounts_neg (by rw [Dec.limit]; omega) (by rw [Dec.limit]; omega)
    (by rw [Dec.limit]; omega) hamounts
  refine ⟨_, release_eq_ok_iff.2 ⟨a, b, ha, hb, hneg⟩, ?_, ?_⟩
  · rw [Dec.abs_neg hnonneg0]
    exact h0
  · rw [Dec.abs_neg hnonneg1]
    exact h1

end RangeLedger
