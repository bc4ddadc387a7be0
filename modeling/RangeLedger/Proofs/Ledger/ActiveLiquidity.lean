import RangeLedger.Proofs.Ledger.Runs

/-!
# Active liquidity

The active liquidity of a pool is kept in two unrelated ways. A change of a position adds to it if
the range of the position contains the current tick, and a move of the price adds the net liquidity
of the ticks that it crosses. Both keep it at the same sum: the liquidity of the positions whose
range contains the current tick.

What ties the two together are the sums of the net liquidity over the ticks up to some tick. Such a
sum is the liquidity of the positions that begin at or below the tick and end above it, for every
tick at once, so a move may stop anywhere. The invariant is `Store.Balanced`; a pool takes its first
price only as long as nobody has a position in it, which is part of the invariant too.

## Main results

* `Store.balanced_after_trades`: the invariant holds after every run of calls and moves.
* `Ledger.netUpTo_eq_covering`: sums of the net liquidity, their total, what the ledger answers for
  it, and the active liquidity, as sums over positions.
-/

namespace RangeLedger

namespace Store

/-! ### The invariant -/

/-- Positions of a pool whose range contains a tick. -/
def Covers (id : PoolId) (t : Tick) (key : PositionKey) (_ : OrderedSet IncentiveId) : Prop :=
  key.pool = id ∧ key.lower ≤ t ∧ t < key.upper

instance (id : PoolId) (t : Tick) (key : PositionKey) (ids : OrderedSet IncentiveId) :
    Decidable (Covers id t key ids) :=
  inferInstanceAs (Decidable (key.pool = id ∧ key.lower ≤ t ∧ t < key.upper))

/-- A position that may be stored: it holds something, over a range that is not empty, in a pool
that has a price. -/
structure Held (s : Store) (position : Position) : Prop where
  positive : 0 < position.liquidity.raw
  ordered : position.key.lower < position.key.upper
  priced : ∃ p, s.pools.get? position.key.pool = some p ∧ p.isUnpriced = false

/-- The net liquidity up to every tick is that of the positions which cover the tick, and the active
liquidity of every pool is that of the positions which cover the current tick. -/
structure Balanced (s : Store) : Prop where
  held : ∀ key position, s.positions.get? key = some position → s.Held position
  netUpTo : ∀ id t, s.netUpTo id t = s.liquidityOf (Covers id t)
  active : ∀ id p, s.pools.get? id = some p → p.liquidity.raw = s.netUpTo id p.tick

variable {s s' : Store}

/-- In a balanced store every position has liquidity. -/
theorem Balanced.positionsHold (h : s.Balanced) : s.PositionsHold := fun key position hposition =>
  (h.held key position hposition).positive

/-- Without positions of a kind the kind has no liquidity. -/
theorem liquidityOf_eq_zero {kind : PositionKey → OrderedSet IncentiveId → Prop}
    [∀ key ids, Decidable (kind key ids)]
    (h : ∀ key position, s.positions.get? key = some position →
      ¬kind position.key position.incentives) : s.liquidityOf kind = 0 :=
  Table.sum_eq_zero fun position hposition => if_neg (h _ position (Table.get?_of_mem hposition))

/-! ### What keeps the invariant -/

/-- A fresh store is balanced: it holds nothing. -/
theorem IsFresh.balanced (h : s.IsFresh) : s.Balanced := by
  refine ⟨fun key position hposition => ?_, fun id t => ?_, fun id p hp => ?_⟩
  · rw [h.positions] at hposition
    cases hposition
  · rw [h.netUpTo_eq]
    exact (h.total_eq _).symm
  · rw [h.netUpTo_eq, (h.pool hp).liquidity]
    rfl

/-- Crossings are nothing to a position that is held. -/
theorem Held.of_recrossed {position : Position} (h : s.Held position) (hs : s.Recrossed s') :
    s'.Held position := by
  obtain ⟨p, hp, hpriced⟩ := h.priced
  obtain ⟨p', hp', heq⟩ := hs.symm.pool hp
  refine ⟨h.positive, h.ordered, p', hp', ?_⟩
  rw [heq] at hpriced
  exact hpriced

/-- Crossings keep a store balanced: they move no liquidity and no price. -/
theorem Balanced.of_recrossed (h : s.Balanced) (hs : s.Recrossed s') : s'.Balanced := by
  refine ⟨fun key position hposition => ?_, fun id t => ?_, fun id p' hp' => ?_⟩
  · rw [hs.positions] at hposition
    exact (h.held key position hposition).of_recrossed hs
  · rw [hs.netUpTo, h.netUpTo, liquidityOf_congr hs.positions]
  · obtain ⟨p, hp, heq⟩ := hs.pool hp'
    rw [hs.netUpTo, heq]
    exact h.active id p hp

/-- A pool without a price has no positions. -/
theorem Balanced.pool_ne (h : s.Balanced) {found : Pool}
    (hfound : s.pools.get? found.id = some found) (hunpriced : found.isUnpriced = true)
    {key : PositionKey} {position : Position} (hposition : s.positions.get? key = some position) :
    position.key.pool ≠ found.id := by
  intro hpool
  obtain ⟨p, hp, hpriced⟩ := (h.held key position hposition).priced
  rw [hpool, hfound] at hp
  cases hp
  rw [hunpriced] at hpriced
  cases hpriced

/-- The first price of a pool changes no sum: there are no positions yet. -/
theorem Balanced.of_pricedAs (h : s.Balanced) {found p : Pool} {amount0 amount1 : Amount}
    (hfound : s.pools.get? found.id = some found)
    (hs : Operation.PricedAs s found amount0 amount1 p s') : s'.Balanced := by
  obtain ⟨hunpriced, hopen, rfl⟩ | ⟨-, -, rfl⟩ := hs
  · obtain ⟨root, tick, rfl, -⟩ := Pool.openWith_eq_ok hopen
    have hnone (t : Tick) : s.netUpTo found.id t = 0 := by
      rw [h.netUpTo]
      exact liquidityOf_eq_zero fun key position hposition hcovers =>
        h.pool_ne hfound hunpriced hposition hcovers.1
    refine ⟨fun key position hposition => ?_, h.netUpTo, fun id p hp => ?_⟩
    · have hheld := h.held key position hposition
      obtain ⟨p, hp, hpriced⟩ := hheld.priced
      refine ⟨hheld.positive, hheld.ordered, p, ?_, hpriced⟩
      rw [get?_setPool, if_neg fun hid => h.pool_ne hfound hunpriced hposition hid.symm]
      exact hp
    · rw [get?_setPool] at hp
      split at hp
      next hid =>
        cases hp
        have hactive := h.active found.id found hfound
        rw [hnone] at hactive
        change found.liquidity.raw = s.netUpTo id tick
        rw [hactive, ← hid]
        exact (hnone tick).symm
      next => exact h.active id p hp
  · exact h

/-- A step up at the lower boundary and a step down at the upper one make a plateau between them. -/
theorem steps_eq_ite {lower upper : Tick} (h : lower < upper) (t : Tick) (n : Int) {c : Prop}
    [Decidable c] (hc : c) :
    (if c ∧ lower ≤ t then n else 0) - (if c ∧ upper ≤ t then n else 0) =
      if c ∧ lower ≤ t ∧ t < upper then n else 0 := by
  simp only [hc, true_and, Bounded.le_def, Bounded.lt_def] at h ⊢
  split_ifs <;> omega

/-- A change of a position takes no pool its price. -/
theorem Repositioned.priced {position : Position} {delta : Dec}
    (hs : s.Repositioned position delta s') {id : PoolId}
    (h : ∃ p, s.pools.get? id = some p ∧ p.isUnpriced = false) :
    ∃ p, s'.pools.get? id = some p ∧ p.isUnpriced = false := by
  obtain ⟨p, active, hp, -, hpools⟩ := hs.pools
  obtain ⟨q, hq, hunpriced⟩ := h
  rw [hpools]
  split
  next hid =>
    rw [← hid, hp] at hq
    cases hq
    exact ⟨_, rfl, hunpriced⟩
  next => exact ⟨q, hq, hunpriced⟩

section

variable (h : s.Balanced) {position : Position} {delta : Dec}
  (hordered : position.key.lower < position.key.upper) (hs : s.Repositioned position delta s')

include h hordered hs

/-- What is stored after a change of a position that leaves it no debt may be stored. -/
theorem Balanced.held_of_repositioned
    (hpriced : ∃ p, s.pools.get? position.key.pool = some p ∧ p.isUnpriced = false)
    (hrest : 0 ≤ position.liquidity.raw + delta.raw) {key : PositionKey} {stored : Position}
    (hstored : s'.positions.get? key = some stored) : s'.Held stored := by
  obtain ⟨liquidity, hadd, -, hpositions⟩ := hs.liquidity
  rw [hpositions] at hstored
  split at hstored
  next =>
    split at hstored
    next => cases hstored
    next hzero =>
      cases hstored
      have hraw := Dec.add_eq_ok_iff.1 hadd
      have hne : liquidity.raw ≠ 0 := by simpa [Dec.isZero] using hzero
      exact ⟨by change 0 < liquidity.raw; omega, hordered, hs.priced hpriced⟩
  next =>
    have hheld := h.held key stored hstored
    exact ⟨hheld.positive, hheld.ordered, hs.priced hheld.priced⟩

/-- The sums up to every tick stay those over positions when one of them changes. -/
theorem Balanced.netUpTo_of_repositioned
    (htarget : s.Target position.key position.incentives position) (id : PoolId) (t : Tick) :
    s'.netUpTo id t = s'.liquidityOf (Covers id t) := by
  rw [hs.netUpTo, hs.liquidityOf_eq htarget, h.netUpTo, Int.add_sub_assoc]
  congr 1
  simp only [Covers]
  by_cases hid : position.key.pool = id
  · exact steps_eq_ite hordered t delta.raw hid
  · simp only [hid, false_and, if_false, Int.sub_zero]

/-- The active liquidity stays the sum up to the current tick when a position changes. -/
theorem Balanced.active_of_repositioned {id : PoolId} {q : Pool}
    (hq : s'.pools.get? id = some q) : q.liquidity.raw = s'.netUpTo id q.tick := by
  obtain ⟨p, active, hp, hactive, hpools⟩ := hs.pools
  rw [hpools] at hq
  rw [hs.netUpTo]
  split at hq
  next hid =>
    cases hq
    have hplateau := steps_eq_ite hordered p.tick delta.raw hid
    have hrange : (p.InRange position.key.lower position.key.upper) ↔
        position.key.pool = id ∧ position.key.lower ≤ p.tick ∧ p.tick < position.key.upper := by
      rw [Pool.InRange]
      simp only [hid, true_and]
    simp only [hrange] at hactive
    rw [← hplateau, h.active _ p hp, hid] at hactive
    change active.raw = _
    rw [Int.add_sub_assoc]
    exact hid ▸ hactive
  next hid =>
    have hold := h.active id q hq
    simp only [hid, false_and, if_false, Int.add_zero, Int.sub_zero]
    exact hold

/-- **One step**: a change of a position that leaves it no debt keeps the balance. -/
theorem Balanced.of_repositioned
    (htarget : s.Target position.key position.incentives position)
    (hpriced : ∃ p, s.pools.get? position.key.pool = some p ∧ p.isUnpriced = false)
    (hrest : 0 ≤ position.liquidity.raw + delta.raw) : s'.Balanced where
  held _ _ hstored := h.held_of_repositioned hordered hs hpriced hrest hstored
  netUpTo := h.netUpTo_of_repositioned hordered hs htarget
  active _ _ hq := h.active_of_repositioned hordered hs hq

end

/-- A move that arrives keeps the balance: the net liquidity of the crossed ticks leads from the sum
at the old tick to the sum at the new one. -/
theorem Balanced.of_moved (h : s.Balanced) {mid : Store} {p current : Pool} {target : Tick}
    {root liquidity : Dec} (hp : s.pools.get? current.id = some p) (hmid : s.Recrossed mid)
    (hroot : 0 < root.raw)
    (hsum : liquidity.raw = p.liquidity.raw +
      (s.netUpTo current.id target - s.netUpTo current.id p.tick)) :
    (Storage.setPool mid
      { current with tick := target, sqrtPrice := root, liquidity := liquidity }).Balanced := by
  have hbalanced := h.of_recrossed hmid
  refine ⟨fun key position hposition => ?_, hbalanced.netUpTo, fun id q hq => ?_⟩
  · have hheld := hbalanced.held key position hposition
    obtain ⟨q, hq, hpriced⟩ := hheld.priced
    refine ⟨hheld.positive, hheld.ordered, ?_⟩
    by_cases hid : current.id = position.key.pool
    · exact ⟨_, (get?_setPool _ _ _).trans (if_pos hid), Pool.isUnpriced_eq_false_of_pos hroot⟩
    · refine ⟨q, ?_, hpriced⟩
      rwa [get?_setPool, if_neg hid]
  · rw [get?_setPool] at hq
    split at hq
    next hid =>
      cases hq
      have hold := h.active _ p hp
      change liquidity.raw = mid.netUpTo id target
      rw [hmid.netUpTo, hsum, ← hid]
      change _ = s.netUpTo current.id target
      omega
    next => exact hbalanced.active id q hq

/-! ### Runs -/

/-- **A deposit** keeps a store balanced. -/
theorem Balanced.of_deposit (h : s.Balanced) {now : Timestamp} {c : Config} {d : Deposit}
    {r : Receipt} (hrun : (Operation.deposit now c d).run s = (.ok r, s')) : s'.Balanced := by
  obtain ⟨found, p, s₁, position, hfound, hordered, hpriced, hquote, hkey, hids, htarget, hs⟩ :=
    Operation.deposit_effect hrun
  obtain ⟨_, _, _, _, _, _, hpositive, -⟩ := Operation.quote_eq_ok_iff.1 hquote
  have hid : found.id = d.pool := Table.key_of_get? hfound
  have hfirst := h.of_pricedAs (hid ▸ hfound) hpriced
  refine hfirst.of_repositioned ?_ hs htarget ?_ ?_
  · rw [hkey]
    exact hordered
  · refine ⟨p, ?_, hpriced.isUnpriced_eq_false⟩
    rw [hkey]
    exact hpriced.get?_eq hfound
  · have hbefore := htarget.liquidity_nonneg hfirst.positionsHold
    omega

/-- **A withdrawal** keeps a store balanced. -/
theorem Balanced.of_withdraw (h : s.Balanced) {now : Timestamp} {c : Config} {w : Withdrawal}
    {out : Amount × Amount} (hrun : (Operation.withdraw now c w).run s = (.ok out, s')) :
    s'.Balanced := by
  obtain ⟨p, position, amounts, hp, hordered, hkey, hposition, hpositive, hle, -, -, -, hs⟩ :=
    Operation.withdraw_effect hrun
  have hheld := h.held _ _ hposition
  refine h.of_repositioned hheld.ordered hs (.inl ⟨hposition, rfl⟩) hheld.priced ?_
  have hlimit : -Dec.limit < w.liquidity.raw := by
    rw [Dec.limit]
    omega
  rw [Dec.raw_neg hlimit]
  omega

/-- **The balance holds after every run of calls and moves.** -/
theorem balanced_after_trades {l : Ledger} (hl : l.store.IsFresh) {events : List Event}
    (hevents : ∀ e ∈ events, e.IsTrade) : (l.after events).store.Balanced :=
  Ledger.store_after_trades (fun _ _ hs h => h.of_recrossed hs)
    (fun _ _ _ _ _ _ hrun h => h.of_deposit hrun) (fun _ _ _ _ _ _ hrun h => h.of_withdraw hrun)
    (fun _ _ _ _ _ _ _ hp hmid _ hroot hsum h => h.of_moved hp hmid hroot hsum) hl.balanced hevents

/-- No position ends above the last tick, so the net liquidity of all ticks together is nothing. -/
theorem Balanced.sum_net_eq_zero (h : s.Balanced) (id : PoolId) :
    ((s.ticksOf id).values.map fun state => state.stake.net.raw).sum = 0 := by
  obtain ⟨last, hlast⟩ : ∃ last : Tick, ∀ t : Tick, t ≤ last :=
    ⟨⟨0x7FFF_FFFF_FFFF_FFFF, by decide, by decide⟩, fun t => t.le_hi⟩
  have hall : s.netUpTo id last = 0 := by
    rw [h.netUpTo]
    exact liquidityOf_eq_zero fun key position _ hcovers =>
      absurd hcovers.2.2 (Int.not_lt.2 (hlast position.key.upper))
  rw [← hall]
  rw [Store.netUpTo, Table.sum, Map.values, List.map_map]
  refine congrArg List.sum (List.map_congr_left fun entry _ => ?_)
  exact (if_pos (hlast entry.1)).symm

end Store

/-- The sum that the ledger adds up over a list of ticks is their sum. -/
theorem Operation.netSum_eq_ok {ticks : List TickState} {sum : Dec} (h : netSum ticks = .ok sum) :
    sum.raw = (ticks.map fun state => state.stake.net.raw).sum := by
  have hfold := foldlM_invariant (fun rest (acc : Dec) =>
    acc.raw + (rest.map fun state => state.stake.net.raw).sum =
      (ticks.map fun state => state.stake.net.raw).sum) ?_ (by rw [Dec.raw_zero, Int.zero_add]) h
  · simpa using hfold
  · intro state rest acc acc' hacc hadd
    rw [Dec.add_eq_ok_iff] at hadd
    rw [List.map_cons, List.sum_cons] at hacc
    rw [hadd]
    omega

/-! ### What the ledger answers -/

/-- **Net liquidity and active liquidity are sums over positions.** After every run of calls and
moves of the price on a fresh ledger, the net liquidity of the ticks of a pool up to some tick is
the liquidity of the positions whose range contains that tick, and so is never negative; over all
ticks it adds up to nothing, and the ledger never answers another sum for it; and the active
liquidity of a pool is the liquidity of the positions whose range contains its current tick. -/
theorem Ledger.netUpTo_eq_covering {l : Ledger} (hl : l.store.IsFresh) {events : List Event}
    (hevents : ∀ e ∈ events, e.IsTrade) (id : PoolId) :
    (∀ t, (l.after events).store.netUpTo id t = (l.after events).store.liquidityOf (fun key _ =>
        key.pool = id ∧ key.lower ≤ t ∧ t < key.upper) ∧
      0 ≤ (l.after events).store.netUpTo id t) ∧
    (((l.after events).store.ticksOf id).values.map fun state => state.stake.net.raw).sum = 0 ∧
    (∀ sum l', (Ledger.netLiquiditySum id).run (l.after events) = (.ok sum, l') →
      sum = Dec.zero) ∧
    ∀ p, (l.after events).store.pools.get? id = some p →
      p.liquidity.raw = (l.after events).store.liquidityOf (fun key _ =>
        key.pool = id ∧ key.lower ≤ p.tick ∧ p.tick < key.upper) := by
  have h := Store.balanced_after_trades hl hevents
  refine ⟨fun t => ⟨h.netUpTo id t, ?_⟩, h.sum_net_eq_zero id, fun sum l' hanswer => ?_,
    fun p hp => ?_⟩
  · rw [h.netUpTo]
    exact Store.liquidityOf_nonneg h.positionsHold _
  · obtain ⟨⟨s, hrun⟩, -⟩ := Call.run_read_eq_ok hanswer
    obtain ⟨ticks, s₁, hlist, hsum⟩ := Operation.run_bind_eq_ok_iff.1 hrun
    obtain ⟨_, -, rfl, -⟩ := Operation.initializedTicks_eq_ok_iff.1 hlist
    have hraw := Operation.netSum_eq_ok (Operation.run_liftMath_eq_ok_iff.1 hsum).1
    rw [h.sum_net_eq_zero] at hraw
    exact Dec.ext hraw
  · exact (h.active id p hp).trans (h.netUpTo id p.tick)

/-- A move across the boundary that two positions share takes one out and the other in. -/
theorem Ledger.netUpTo_eq_covering_sample :
    ∃ p, (Sample.ledger.after Sample.crossing).store.pools.get? Sample.pool.id = some p ∧
      p.tick = Sample.tick 15 ∧ p.liquidity.raw = 1000800270049006000745069 := by
  have hkept : ((Sample.ledger.after Sample.crossing).store.pools.get? Sample.pool.id).map
      Pool.tick = some (Sample.tick 15) := by decide +kernel
  obtain ⟨p, hp, htick⟩ := Option.map_eq_some_iff.1 hkept
  obtain ⟨-, -, -, hactive⟩ := Ledger.netUpTo_eq_covering Sample.ledger_isFresh
    Sample.isTrade_crossing Sample.pool.id
  refine ⟨p, hp, htick, (hactive p hp).trans ?_⟩
  rw [htick]
  decide +kernel

end RangeLedger
