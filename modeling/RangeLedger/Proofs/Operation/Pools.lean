import RangeLedger.Proofs.Operation.Prices
import RangeLedger.Proofs.Tick.Outside

/-!
# What becomes of a pool

A pool is never forgotten, and most of it never changes: its number, its account, its tokens, its
spacing and the time of its creation. Incentives may be added to it, but none is removed. Its price
is written while it has none, and then never again. All of this is one relation between a pool and
the one that is later kept in its place (`Pool.Continues`). It can be composed, so it holds between
any two moments if every operation keeps it.

## Main results

* `Store.Continues`: every pool is kept and continues, with one lemma for each operation.
* `Operation.deposit_opens`: a deposit into a pool without a price leaves it with one, and its
  square root is positive.
-/

namespace RangeLedger

/-- What a pool is when it is kept in the place of an earlier one. -/
structure Pool.Continues (p q : Pool) : Prop where
  id : q.id = p.id
  address : q.address = p.address
  token0 : q.token0 = p.token0
  token1 : q.token1 = p.token1
  spacing : q.spacing = p.spacing
  created : q.created = p.created
  /-- No incentive is removed. -/
  incentives : ∀ i, p.incentives.contains i = true → q.incentives.contains i = true
  /-- A price is not changed. -/
  price : p.isUnpriced = false → q.price = p.price

namespace Pool

variable {p q r : Pool}

/-- Whether a pool has a price can be seen from its price. -/
theorem isUnpriced_congr (h : q.price = p.price) : q.isUnpriced = p.isUnpriced :=
  Bool.eq_iff_iff.2 (by rw [isUnpriced_iff, isUnpriced_iff, h])

namespace Continues

/-- A pool that does not change continues. -/
theorem refl (p : Pool) : p.Continues p :=
  ⟨rfl, rfl, rfl, rfl, rfl, rfl, fun _ h => h, fun _ => rfl⟩

/-- A pool that continues twice continues. -/
theorem trans (h : p.Continues q) (h' : q.Continues r) : p.Continues r where
  id := h'.id.trans h.id
  address := h'.address.trans h.address
  token0 := h'.token0.trans h.token0
  token1 := h'.token1.trans h.token1
  spacing := h'.spacing.trans h.spacing
  created := h'.created.trans h.created
  incentives i hi := h'.incentives i (h.incentives i hi)
  price hpriced := by
    have hprice := h.price hpriced
    exact (h'.price ((isUnpriced_congr hprice).trans hpriced)).trans hprice

end Continues

end Pool

namespace Store

variable {s s' s'' : Store}

/-- Every pool is kept, and continues. -/
def Continues (s s' : Store) : Prop :=
  ∀ id p, s.pools.get? id = some p → ∃ q, s'.pools.get? id = some q ∧ p.Continues q

/-- Where the pools do not change all of them continue. -/
theorem continues_of_pools (h : s'.pools = s.pools) : s.Continues s' :=
  fun _ p hp => ⟨p, h ▸ hp, .refl p⟩

namespace Continues

/-- Where nothing changes all pools continue. -/
theorem refl (s : Store) : s.Continues s := continues_of_pools rfl

/-- Pools that continue through two changes continue through both. -/
theorem trans (h : s.Continues s') (h' : s'.Continues s'') : s.Continues s'' := by
  intro id p hp
  obtain ⟨q, hq, hpq⟩ := h id p hp
  obtain ⟨r, hr, hqr⟩ := h' id q hq
  exact ⟨r, hr, hpq.trans hqr⟩

end Continues

/-- A pool is kept in the place of one that it continues. -/
theorem continues_setPool {p q : Pool} (hp : s.pools.get? q.id = some p) (h : p.Continues q) :
    s.Continues (Storage.setPool s q) := by
  intro id r hr
  by_cases hid : q.id = id
  · obtain rfl : p = r := by
      rw [← hid, hp] at hr
      exact Option.some.inj hr
    exact ⟨q, (get?_setPool _ _ _).trans (if_pos hid), h⟩
  · exact ⟨r, ((get?_setPool _ _ _).trans (if_neg hid)).trans hr, .refl r⟩

/-- Through a change of a position all pools continue. -/
theorem Repositioned.continues {position : Position} {delta : Dec}
    (h : s.Repositioned position delta s') : s.Continues s' := by
  obtain ⟨p, active, hp, -, hpools⟩ := h.pools
  intro id q hq
  rw [hpools]
  split
  next hid =>
    obtain rfl : p = q := by
      rw [← hid, hp] at hq
      exact Option.some.inj hq
    exact ⟨_, rfl, ⟨rfl, rfl, rfl, rfl, rfl, rfl, fun _ hi => hi, fun _ => rfl⟩⟩
  next => exact ⟨q, hq, .refl q⟩

end Store

namespace Operation

variable {s s' : Store} {now : Timestamp} {c : Config}

/-- Through a first price all pools continue. -/
theorem PricedAs.continues {found p : Pool} {amount0 amount1 : Amount} {id : PoolId}
    (h : PricedAs s found amount0 amount1 p s') (hfound : s.pools.get? id = some found) :
    s.Continues s' := by
  obtain ⟨hunpriced, hopen, rfl⟩ | ⟨-, -, rfl⟩ := h
  · obtain ⟨root, tick, rfl, -⟩ := Pool.openWith_eq_ok hopen
    obtain rfl : found.id = id := Table.key_of_get? hfound
    refine Store.continues_setPool (p := found) hfound
      ⟨rfl, rfl, rfl, rfl, rfl, rfl, fun _ hi => hi, fun hpriced => ?_⟩
    rw [hunpriced] at hpriced
    cases hpriced
  · exact .refl _

/-- Through a deposit all pools continue. -/
theorem deposit_continues {d : Deposit} {r : Receipt} (h : (deposit now c d).run s = (.ok r, s')) :
    s.Continues s' := by
  obtain ⟨found, p, s₁, position, hfound, -, hpriced, -, -, -, -, hs⟩ := deposit_effect h
  exact (hpriced.continues hfound).trans hs.continues

/-- Through a withdrawal all pools continue. -/
theorem withdraw_continues {w : Withdrawal} {out : Amount × Amount}
    (h : (withdraw now c w).run s = (.ok out, s')) : s.Continues s' := by
  obtain ⟨_, _, _, -, -, -, -, -, -, -, -, -, hs⟩ := withdraw_effect h
  exact hs.continues

/-- Through a change of a tick all pools continue. -/
theorem changeTick_continues {id : PoolId} {t : Tick} {edge : Edge} {delta : Dec}
    {ids : OrderedSet IncentiveId} {u : Unit}
    (h : (changeTick now id t edge delta ids).run s = (.ok u, s')) : s.Continues s' := by
  obtain ⟨p, after, -, -, rfl⟩ := changeTick_eq_ok_iff.1 h
  exact Store.continues_of_pools rfl

/-- Through a crossing all pools continue. -/
theorem crossTick_continues {mode : InactiveMode} {id : PoolId} {t : Tick} {net : Dec}
    (h : (crossTick now mode id t).run s = (.ok net, s')) : s.Continues s' := by
  obtain ⟨p, after, p', hp, -, hp', -, rfl⟩ := crossTick_eq_ok_iff.1 h
  have heq := Pool.accrue_eq hp'
  obtain rfl : p.id = id := Table.key_of_get? hp
  refine Store.continues_setPool (s := Storage.setTick s p.id t after) (p := p) ?_ ?_
  · rw [heq]
    exact hp
  · rw [heq]
    exact ⟨rfl, rfl, rfl, rfl, rfl, rfl, fun _ => Pool.contains_accrue hp', fun _ => rfl⟩

/-- Through a new incentive all pools continue. -/
theorem addIncentive_continues {id : PoolId} {incentive : IncentiveId} {u : Unit}
    (h : (addIncentive id incentive).run s = (.ok u, s')) : s.Continues s' := by
  obtain ⟨p, hp, rfl⟩ := addIncentive_eq_ok_iff.1 h
  split
  · exact .refl _
  · obtain rfl : p.id = id := Table.key_of_get? hp
    exact Store.continues_setPool (p := p) hp ⟨rfl, rfl, rfl, rfl, rfl, rfl,
      fun i hi => (Map.contains_foldl_insertNew _ _ _ i).2 (.inl hi), fun _ => rfl⟩

/-- **A deposit into a pool without a price** leaves it with one, and its square root is
positive. -/
theorem deposit_opens {d : Deposit} {r : Receipt} (h : (deposit now c d).run s = (.ok r, s'))
    (hprice : s.priceOf d.pool = some Pool.noPrice) :
    ∃ q, s'.pools.get? d.pool = some q ∧ 0 < q.sqrtPrice.raw ∧ q.isUnpriced = false := by
  obtain ⟨found, p, s₁, position, hfound, -, hpriced, -, hkey, -, -, hs⟩ := deposit_effect h
  have hp := hpriced.get?_eq hfound
  obtain ⟨q, hq, hcontinues⟩ := hs.continues _ _ hp
  have hpositive : 0 < p.sqrtPrice.raw := by
    obtain ⟨-, hopen, -⟩ | ⟨hnot, -⟩ := hpriced
    · obtain ⟨root, tick, rfl, hroot⟩ := Pool.openWith_eq_ok hopen
      exact Int.lt_of_lt_of_le (by decide) hroot
    · rw [Store.priceOf_of_get? hfound, Option.some.injEq, ← Pool.isUnpriced_iff, hnot] at hprice
      cases hprice
  have hsame := hcontinues.price (Pool.isUnpriced_eq_false_of_pos hpositive)
  have hroot : q.sqrtPrice = p.sqrtPrice := congrArg Prod.snd hsame
  rw [← hroot] at hpositive
  exact ⟨q, hq, hpositive, Pool.isUnpriced_eq_false_of_pos hpositive⟩

end Operation

end RangeLedger
