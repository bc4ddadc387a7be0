import RangeLedger.Proofs.Operation.Effect

/-!
# Operations and prices

The price of a pool is kept twice, as a tick and as a square root. Of the operations only a deposit
ever writes it, and only that of its own pool while this has none: everything else that is done to a
pool changes its liquidity, its accumulators or its ticks.

## Main results

* `Store.priceOf`: the price that is kept for a pool, with one lemma for each operation.
* `Operation.deposit_priceOf`: a deposit prices its own pool, if it has no price, and no other.
-/

namespace RangeLedger

/-- The price of a pool, as a tick and as a square root. -/
def Pool.price (p : Pool) : Tick × Dec := (p.tick, p.sqrtPrice)

/-- The price of a pool that has been given none. -/
def Pool.noPrice : Tick × Dec := (Tick.zero, Dec.zero)

/-- A pool has no price just if its root is zero and its tick the first one. -/
theorem Pool.isUnpriced_iff {p : Pool} : p.isUnpriced = true ↔ p.price = Pool.noPrice := by
  rw [isUnpriced, Bool.and_eq_true, Dec.isZero, beq_iff_eq, beq_iff_eq, price, noPrice,
    Prod.mk.injEq, and_comm, Dec.ext_iff]
  rfl

namespace Store

variable {s s' : Store} {id : PoolId}

/-- The price that is kept for a pool. -/
def priceOf (s : Store) (id : PoolId) : Option (Tick × Dec) := (s.pools.get? id).map Pool.price

/-- The price of a pool that is there. -/
theorem priceOf_of_get? {p : Pool} (hp : s.pools.get? id = some p) :
    s.priceOf id = some p.price := by
  rw [priceOf, hp, Option.map_some]

/-- A change of a position leaves all prices. -/
theorem Repositioned.priceOf_eq {position : Position} {delta : Dec}
    (h : s.Repositioned position delta s') (id : PoolId) : s'.priceOf id = s.priceOf id := by
  obtain ⟨p, active, hp, -, hpools⟩ := h.pools
  rw [priceOf, hpools]
  split
  next hid => rw [Option.map_some, ← hid, priceOf_of_get? hp]; rfl
  next => rfl

/-- A crossing leaves all prices. -/
theorem Recrossed.priceOf_eq (h : s.Recrossed s') (id : PoolId) : s'.priceOf id = s.priceOf id := by
  have hbare (found : Option Pool) :
      found.map Pool.price = (found.map Pool.bare).map Pool.price := by
    rw [Option.map_map]
    rfl
  rw [priceOf, hbare, h.pools, ← hbare, priceOf]

end Store

namespace Operation

variable {s s' : Store} {now : Timestamp} {c : Config}

/-- **A deposit prices** its own pool, if it has no price, and no other. -/
theorem deposit_priceOf {d : Deposit} {r : Receipt} (h : (deposit now c d).run s = (.ok r, s'))
    {id : PoolId} (hid : d.pool = id → s.priceOf id ≠ some Pool.noPrice) :
    s'.priceOf id = s.priceOf id := by
  obtain ⟨found, p, s₁, position, hfound, -, hpriced, -, -, -, -, hs⟩ := deposit_effect h
  rw [hs.priceOf_eq]
  by_cases hpool : d.pool = id
  · subst hpool
    obtain ⟨hunpriced, -⟩ | ⟨-, -, rfl⟩ := hpriced
    · rw [Store.priceOf_of_get? hfound, Pool.isUnpriced_iff.1 hunpriced] at hid
      exact absurd rfl (hid rfl)
    · rfl
  · rw [Store.priceOf, hpriced.get?_of_ne hfound hpool, Store.priceOf]

/-- **A withdrawal** leaves all prices. -/
theorem withdraw_priceOf {w : Withdrawal} {out : Amount × Amount}
    (h : (withdraw now c w).run s = (.ok out, s')) (id : PoolId) :
    s'.priceOf id = s.priceOf id := by
  obtain ⟨_, _, _, -, -, -, -, -, -, -, -, -, hs⟩ := withdraw_effect h
  exact hs.priceOf_eq id

/-- A change of a tick leaves all prices. -/
theorem changeTick_priceOf {at' : PoolId} {t : Tick} {edge : Edge} {delta : Dec}
    {ids : OrderedSet IncentiveId} {u : Unit}
    (h : (changeTick now at' t edge delta ids).run s = (.ok u, s')) (id : PoolId) :
    s'.priceOf id = s.priceOf id := by
  obtain ⟨p, after, -, -, rfl⟩ := changeTick_eq_ok_iff.1 h
  rfl

end Operation

end RangeLedger
