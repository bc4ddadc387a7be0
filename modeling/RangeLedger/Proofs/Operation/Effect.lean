import RangeLedger.Proofs.Storage.Totals
import RangeLedger.Proofs.Tick.Stakes

/-!
# Effects of operations

What an operation does to a store is told here through the quantities that matter of a store: the
stakes of its ticks, the net liquidity up to a tick, totals over its positions, and its pools.
There are two kinds of effects. A change of a position by some liquidity moves these quantities at
its two boundaries (`Store.Repositioned`); crossings and new incentives leave all of them, and of a
pool touch nothing but its accumulators (`Store.Recrossed`).

## Main results

* `Operation.changePosition_repositioned`: the effect of a change of a position.
* `Operation.PricedAs.pool`: a first price changes nothing else of a pool.
* `Operation.deposit_effect`, `Operation.withdraw_effect`: the effect of both ends of a position.
* `Operation.crossTick_recrossed`, `Operation.addIncentive_recrossed`: the effect of the others.
-/

namespace RangeLedger

/-- The sign with which liquidity counts at a boundary, when the price moves up across it. -/
def Edge.signed : Edge → Int → Int
  | .lower, n => n
  | .upper, n => -n

/-- At a lower boundary liquidity counts as it is. -/
@[simp] theorem Edge.signed_lower (n : Int) : Edge.lower.signed n = n := rfl

/-- At an upper boundary liquidity counts the other way. -/
@[simp] theorem Edge.signed_upper (n : Int) : Edge.upper.signed n = -n := rfl

namespace Store

variable {s s' : Store}

/-! ### Changes of a tick -/

section

variable {p : Pool} {now : Timestamp} {edge : Edge} {delta : Dec} {ids : OrderedSet IncentiveId}
  {id : PoolId} {t : Tick} {after : TickState}

/-- A changed tick gains the liquidity in each scope that the position counts for. -/
theorem stake_setTick (h : (s.tickAt id t).change p now edge delta ids = .ok after) (id' : PoolId)
    (t' : Tick) (scope : Scope) :
    (((Storage.setTick s id t after).tickAt id' t').stakeFor scope).gross.raw =
        ((s.tickAt id' t').stakeFor scope).gross.raw +
          (if id = id' ∧ t = t' ∧ scope.Counts ids then delta.raw else 0) ∧
      (((Storage.setTick s id t after).tickAt id' t').stakeFor scope).net.raw =
        ((s.tickAt id' t').stakeFor scope).net.raw +
          (if id = id' ∧ t = t' ∧ scope.Counts ids then edge.signed delta.raw else 0) := by
  rw [tickAt_setTick]
  by_cases hat : id = id' ∧ t = t'
  · obtain ⟨rfl, rfl⟩ := hat
    have hscope := TickState.stakeFor_change h scope
    simp only [true_and, and_self, if_true]
    by_cases hcounts : scope.Counts ids
    · rw [if_pos hcounts, Stake.shift_eq_ok_iff] at hscope
      obtain ⟨hgross, -, hnet⟩ := hscope
      rw [if_pos hcounts, if_pos hcounts, hgross, hnet]
      cases edge <;> exact ⟨rfl, rfl⟩
    · rw [if_neg hcounts] at hscope
      rw [if_neg hcounts, if_neg hcounts, hscope]
      simp
  · have hnot : ¬(id = id' ∧ t = t' ∧ scope.Counts ids) := fun h => hat ⟨h.1, h.2.1⟩
    rw [if_neg hat, if_neg hnot, if_neg hnot]
    simp

/-- The net liquidity up to a tick follows that of the changed tick. -/
theorem netUpTo_setTick_change (h : (s.tickAt id t).change p now edge delta ids = .ok after)
    (id' : PoolId) (bound : Tick) :
    (Storage.setTick s id t after).netUpTo id' bound =
      s.netUpTo id' bound + if id = id' ∧ t ≤ bound then edge.signed delta.raw else 0 := by
  have hnet := (stake_setTick h id t none).2
  rw [tickAt_setTick, if_pos ⟨rfl, rfl⟩, if_pos ⟨rfl, rfl, trivial⟩] at hnet
  change after.stake.net.raw = (s.tickAt id t).stake.net.raw + _ at hnet
  rw [netUpTo_setTick, hnet]
  split <;> omega

end

/-! ### Changes of a position -/

/-- The effect of a change of a position by some liquidity. -/
structure Repositioned (s : Store) (position : Position) (delta : Dec) (s' : Store) : Prop where
  /-- The liquidity that the position then has. -/
  liquidity : ∃ liquidity, position.liquidity.add delta = .ok liquidity ∧
    (∀ f, Backed f → s'.total f = s.total f + f { position with liquidity := liquidity } -
      Table.share f (s.positions.get? position.key)) ∧
    ∀ key, s'.positions.get? key =
      if position.key = key then
        if liquidity.isZero then none else some { position with liquidity := liquidity }
      else s.positions.get? key
  /-- Both boundaries gain it in the gross stake. -/
  gross : ∀ id t scope, ((s'.tickAt id t).stakeFor scope).gross.raw =
    ((s.tickAt id t).stakeFor scope).gross.raw +
      (if position.key.pool = id ∧ position.key.lower = t ∧ scope.Counts position.incentives then
        delta.raw else 0) +
      (if position.key.pool = id ∧ position.key.upper = t ∧ scope.Counts position.incentives then
        delta.raw else 0)
  /-- The lower boundary gains it in the net stake, and the upper one loses it. -/
  net : ∀ id t scope, ((s'.tickAt id t).stakeFor scope).net.raw =
    ((s.tickAt id t).stakeFor scope).net.raw +
      (if position.key.pool = id ∧ position.key.lower = t ∧ scope.Counts position.incentives then
        delta.raw else 0) -
      (if position.key.pool = id ∧ position.key.upper = t ∧ scope.Counts position.incentives then
        delta.raw else 0)
  /-- No other tick is written. -/
  others : ∀ id t, ¬(position.key.pool = id ∧ (position.key.lower = t ∨ position.key.upper = t)) →
    (s'.ticksOf id).get? t = (s.ticksOf id).get? t
  netUpTo : ∀ id bound, s'.netUpTo id bound = s.netUpTo id bound +
    (if position.key.pool = id ∧ position.key.lower ≤ bound then delta.raw else 0) -
    (if position.key.pool = id ∧ position.key.upper ≤ bound then delta.raw else 0)
  /-- The active liquidity gains it if the range contains the current tick. -/
  pools : ∃ p active, s.pools.get? position.key.pool = some p ∧
    active.raw = p.liquidity.raw +
      (if p.InRange position.key.lower position.key.upper then delta.raw else 0) ∧
    ∀ id, s'.pools.get? id =
      if position.key.pool = id then some { p with liquidity := active } else s.pools.get? id

/-- The liquidity of a kind of positions gains it if the changed position is of the kind. -/
theorem Repositioned.liquidityOf_eq {position : Position} {delta : Dec}
    (h : s.Repositioned position delta s')
    (htarget : s.Target position.key position.incentives position)
    (kind : PositionKey → OrderedSet IncentiveId → Prop) [∀ key ids, Decidable (kind key ids)] :
    s'.liquidityOf kind = s.liquidityOf kind +
      if kind position.key position.incentives then delta.raw else 0 := by
  obtain ⟨liquidity, hadd, htotal, -⟩ := h.liquidity
  have hraw := Dec.add_eq_ok_iff.1 hadd
  simp only [liquidityOf]
  rw [htotal _ (backed_liquidity kind), htarget.share_eq (backed_liquidity kind)]
  dsimp only
  split_ifs <;> omega

/-- A change of a position leaves of every pool all but the active liquidity. -/
theorem Repositioned.pool {position : Position} {delta : Dec}
    (h : s.Repositioned position delta s') {id : PoolId} {p' : Pool}
    (hp' : s'.pools.get? id = some p') :
    ∃ p, s.pools.get? id = some p ∧ p' = { p with liquidity := p'.liquidity } := by
  obtain ⟨p, active, hp, -, hpools⟩ := h.pools
  rw [hpools] at hp'
  split at hp'
  next hid =>
    cases hp'
    exact ⟨p, hid ▸ hp, rfl⟩
  next => exact ⟨p', hp', rfl⟩

/-- A pool is what it was before, but for its active liquidity. -/
theorem Repositioned.pool_eq {position : Position} {delta : Dec}
    (h : s.Repositioned position delta s') {id : PoolId} {p p' : Pool}
    (hp : s.pools.get? id = some p) (hp' : s'.pools.get? id = some p') :
    p' = { p with liquidity := p'.liquidity } := by
  obtain ⟨q, hq, heq⟩ := h.pool hp'
  obtain rfl : q = p := Option.some.inj (hq.symm.trans hp)
  exact heq

/-- A position is stored under its key, unless nothing is left of it. -/
theorem get?_keepPosition (s : Store) (p : Position) (key : PositionKey) :
    (s.keepPosition p).positions.get? key =
      if p.key = key then if p.liquidity.isZero then none else some p
      else s.positions.get? key := by
  rw [keepPosition]
  by_cases hzero : p.liquidity.isZero
  · rw [if_pos hzero, if_pos hzero]
    exact Table.get?_erase s.positions p.key key
  · rw [if_neg hzero, if_neg hzero]
    exact Table.get?_insert s.positions p key

/-- Keeping the outcome of a change of the active liquidity changes the one pool. -/
theorem get?_keepPool {p : Pool} {lower upper : Tick} {delta : Dec} {outcome : Option Pool}
    (hp : s.pools.get? p.id = some p) (h : p.shiftActive lower upper delta = .ok outcome) :
    ∃ active, active.raw = p.liquidity.raw + (if p.InRange lower upper then delta.raw else 0) ∧
      ∀ id, (s.keepPool outcome).pools.get? id =
        if p.id = id then some { p with liquidity := active } else s.pools.get? id := by
  rw [Pool.shiftActive] at h
  by_cases hrange : p.InRange lower upper
  · rw [if_pos hrange, bind_eq_ok_iff] at h
    obtain ⟨active, hactive, h⟩ := h
    cases h
    rw [Liquidity.add] at hactive
    obtain ⟨sum, hsum, hactive⟩ := bind_eq_ok_iff.1 hactive
    split at hactive
    · cases hactive
    · cases hactive
      refine ⟨active, ?_, fun id => ?_⟩
      · rw [if_pos hrange]
        exact Dec.add_eq_ok_iff.1 hsum
      · exact get?_setPool s { p with liquidity := active } id
  · rw [if_neg hrange] at h
    cases h
    refine ⟨p.liquidity, by rw [if_neg hrange, Int.add_zero], fun id => ?_⟩
    by_cases hid : p.id = id
    · rw [if_pos hid, ← hid]
      exact hp
    · rw [if_neg hid]
      rfl

end Store

namespace Operation

variable {s s' : Store} {now : Timestamp}

/-- **The effect of a change of a position.** -/
theorem changePosition_repositioned {position : Position} {delta : Dec} {u : Unit}
    (h : (changePosition now position delta).run s = (.ok u, s')) :
    s.Repositioned position delta s' := by
  obtain ⟨p, atLower, atUpper, outcome, liquidity, hp, hlower, hupper, houtcome, hliquidity, rfl⟩ :=
    changePosition_eq_ok_iff.1 h
  have hid : p.id = position.key.pool := Table.key_of_get? hp
  -- the store after both boundaries, beneath the changes of the pool and of the position
  obtain ⟨mid, hmid⟩ : ∃ mid, Storage.setTick (Storage.setTick s position.key.pool
    position.key.lower atLower) position.key.pool position.key.upper atUpper = mid := ⟨_, rfl⟩
  have hpools : mid.pools = s.pools := by rw [← hmid]; rfl
  have hpositions : mid.positions = s.positions := by rw [← hmid]; rfl
  have hkept : (mid.keepPool outcome).positions = s.positions := by
    rw [Store.positions_keepPool, hpositions]
  have hticks (id : PoolId) : ((mid.keepPool outcome).keepPosition
      { position with liquidity := liquidity }).ticksOf id = mid.ticksOf id := by
    rw [Store.ticksOf_keepPosition, Store.ticksOf_keepPool]
  rw [hmid]
  refine ⟨⟨liquidity, hliquidity, fun f hf => ?_, fun key => ?_⟩, fun id t scope => ?_,
    fun id t scope => ?_, fun id t hother => ?_, fun id bound => ?_, ?_⟩
  · rw [Store.total_keepPosition hf, Store.total_congr hkept, hkept]
  · rw [Store.get?_keepPosition, hkept]
  · rw [Store.tickAt_congr (hticks id), ← hmid, (Store.stake_setTick hupper id t scope).1,
      (Store.stake_setTick hlower id t scope).1]
  · rw [Store.tickAt_congr (hticks id), ← hmid, (Store.stake_setTick hupper id t scope).2,
      (Store.stake_setTick hlower id t scope).2]
    rw [Edge.signed_lower, Edge.signed_upper]
    split_ifs <;> omega
  · rw [hticks, ← hmid, Store.get?_setTick_of_not _ _ fun hat => hother ⟨hat.1, .inr hat.2⟩,
      Store.get?_setTick_of_not _ _ fun hat => hother ⟨hat.1, .inl hat.2⟩]
  · rw [Store.netUpTo_congr (hticks id), ← hmid, Store.netUpTo_setTick_change hupper,
      Store.netUpTo_setTick_change hlower]
    rw [Edge.signed_lower, Edge.signed_upper]
    split_ifs <;> omega
  · have hp' : mid.pools.get? p.id = some p := by rw [hpools, hid]; exact hp
    obtain ⟨active, hactive, hkeep⟩ := Store.get?_keepPool hp' houtcome
    refine ⟨p, active, hp, hactive, fun id => ?_⟩
    rw [Store.pools_keepPosition, hkeep, hid, hpools]

end Operation

/-! ### The first price -/

/-- The first price of a pool has a positive square root. -/
theorem Pool.openWith_eq_ok {p opened : Pool} {amount0 amount1 : Amount}
    (h : p.openWith amount0 amount1 = .ok opened) :
    ∃ root tick, opened = { p with sqrtPrice := root, tick := tick } ∧
      1_000_000_000 ≤ root.raw := by
  rw [openWith] at h
  split at h
  · cases h
  · rw [mapError_eq_ok_iff, bind_eq_ok_iff] at h
    obtain ⟨price, -, h⟩ := h
    obtain ⟨root, hroot, h⟩ := bind_eq_ok_iff.1 h
    obtain ⟨tick, htick, h⟩ := bind_eq_ok_iff.1 h
    cases h
    refine ⟨root, tick, rfl, ?_⟩
    have hpositive : 0 < price.raw := by
      rw [Tick.ofPrice] at htick
      split at htick
      next hp => simpa [Dec.isPositive] using hp
      next => cases htick
    rw [Dec.sqrt, if_neg (Int.not_lt.2 (Int.le_of_lt hpositive))] at hroot
    split at hroot
    · rw [Dec.ofRaw_eq_ok_iff] at hroot
      rw [hroot]
      have hle : 1_000_000_000 ≤ Nat.sqrt (price.raw.natAbs * Dec.scale) := by
        rw [Nat.le_sqrt]
        rw [Dec.scale]
        omega
      exact_mod_cast hle
    · cases hroot

/-- A pool with a positive root has a price. -/
theorem Pool.isUnpriced_eq_false_of_pos {p : Pool} (h : 0 < p.sqrtPrice.raw) :
    p.isUnpriced = false := by
  rw [isUnpriced, Dec.isZero, beq_false_of_ne (Int.ne_of_gt h), Bool.false_and]

namespace Operation.PricedAs

variable {s s' : Store} {found p : Pool} {amount0 amount1 : Amount}

/-- A pool that a deposit goes to has a price. -/
theorem isUnpriced_eq_false (h : PricedAs s found amount0 amount1 p s') : p.isUnpriced = false := by
  obtain ⟨-, hopen, -⟩ | ⟨hpriced, rfl, -⟩ := h
  · obtain ⟨root, tick, rfl, hroot⟩ := Pool.openWith_eq_ok hopen
    exact Pool.isUnpriced_eq_false_of_pos (by change 0 < root.raw; omega)
  · exact hpriced

/-- The pool that a deposit goes to is the one that is then kept. -/
theorem get?_eq (h : PricedAs s found amount0 amount1 p s') {id : PoolId}
    (hfound : s.pools.get? id = some found) : s'.pools.get? id = some p := by
  obtain ⟨-, hopen, rfl⟩ | ⟨-, rfl, rfl⟩ := h
  · obtain ⟨root, tick, rfl, -⟩ := Pool.openWith_eq_ok hopen
    have hid : found.id = id := Table.key_of_get? hfound
    exact (Store.get?_setPool _ _ _).trans (if_pos hid)
  · exact hfound

/-- No other pool changes. -/
theorem get?_of_ne (h : PricedAs s found amount0 amount1 p s') {id id' : PoolId}
    (hfound : s.pools.get? id = some found) (hne : id ≠ id') :
    s'.pools.get? id' = s.pools.get? id' := by
  obtain ⟨-, hopen, rfl⟩ | ⟨-, -, rfl⟩ := h
  · obtain ⟨root, tick, rfl, -⟩ := Pool.openWith_eq_ok hopen
    obtain rfl : found.id = id := Table.key_of_get? hfound
    exact (Store.get?_setPool _ _ _).trans (if_neg hne)
  · rfl

/-- Of the pool nothing changes but the price. -/
theorem pool_eq (h : PricedAs s found amount0 amount1 p s') :
    p = { found with sqrtPrice := p.sqrtPrice, tick := p.tick } := by
  obtain ⟨-, hopen, -⟩ | ⟨-, rfl, -⟩ := h
  · obtain ⟨root, tick, rfl, -⟩ := Pool.openWith_eq_ok hopen
    rfl
  · rfl

/-- Of every pool nothing changes but the price. -/
theorem pool (h : PricedAs s found amount0 amount1 p s') {id : PoolId}
    (hfound : s.pools.get? id = some found) {id' : PoolId} {q' : Pool}
    (hq' : s'.pools.get? id' = some q') :
    ∃ q, s.pools.get? id' = some q ∧
      q' = { q with sqrtPrice := q'.sqrtPrice, tick := q'.tick } := by
  by_cases hid : id = id'
  · rw [← hid, h.get?_eq hfound] at hq'
    cases hq'
    exact ⟨found, hid ▸ hfound, h.pool_eq⟩
  · rw [h.get?_of_ne hfound hid] at hq'
    exact ⟨q', hq', rfl⟩

/-- A first price leaves the positions. -/
theorem positions_eq (h : PricedAs s found amount0 amount1 p s') : s'.positions = s.positions := by
  obtain ⟨-, -, rfl⟩ | ⟨-, -, rfl⟩ := h
  · rfl
  · rfl

end Operation.PricedAs

/-! ### Deposits and withdrawals -/

namespace Operation

variable {s s' : Store} {now : Timestamp} {c : Config}

/-- **The effect of a deposit**: the pool may take its first price, and the position under the key
of the deposit gains the liquidity on the receipt. -/
theorem deposit_effect {d : Deposit} {r : Receipt} (h : (deposit now c d).run s = (.ok r, s')) :
    ∃ found p s₁ position, s.pools.get? d.pool = some found ∧ d.lower < d.upper ∧
      PricedAs s found d.amount0 d.amount1 p s₁ ∧ quote p d = .ok r ∧ position.key = d.key ∧
      position.incentives = d.incentives ∧
      s₁.Target position.key position.incentives position ∧
      s₁.Repositioned position r.liquidity s' := by
  obtain ⟨found, p, s₁, position, hfound, hrange, -, hpriced, hquote, htarget, hchange⟩ :=
    deposit_eq_ok_iff.1 h
  have hkey := htarget.key_eq
  have hids := htarget.incentives_eq
  exact ⟨found, p, s₁, position, hfound, (Pool.checkRange_eq_ok_iff.1 hrange).2.2.2.1, hpriced,
    hquote, hkey, hids, hkey ▸ hids ▸ htarget, changePosition_repositioned hchange⟩

/-- **The effect of a withdrawal**: the position under its key loses the liquidity asked for. -/
theorem withdraw_effect {w : Withdrawal} {out : Amount × Amount}
    (h : (withdraw now c w).run s = (.ok out, s')) :
    ∃ p position amounts, s.pools.get? w.pool = some p ∧ w.lower < w.upper ∧
      position.key = w.key ∧ s.positions.get? position.key = some position ∧ 0 < w.liquidity.raw ∧
      w.liquidity.raw ≤ position.liquidity.raw ∧ release p w = .ok amounts ∧
      amounts.1.abs.truncate = .ok out.1 ∧ amounts.2.abs.truncate = .ok out.2 ∧
      s.Repositioned position w.liquidity.neg s' := by
  obtain ⟨p, position, amounts, hp, hrange, hposition, -, hpositive, hheld, hrelease, hchange, h0,
    h1⟩ := withdraw_eq_ok_iff.1 h
  have hkey : position.key = w.key := Table.key_of_get? hposition
  exact ⟨p, position, amounts, hp, (Pool.checkRange_eq_ok_iff.1 hrange).2.2.2.1, hkey,
    hkey ▸ hposition, hpositive, hheld, hrelease, h0, h1, changePosition_repositioned hchange⟩

end Operation

/-! ### Crossings and incentives -/

/-- A pool without its accumulators. -/
def Pool.bare (p : Pool) : Pool := { p with incentives := Map.empty }

namespace Store

/-- The effect of crossings and of new incentives: nothing changes but what is kept at ticks beside
the stakes, and the accumulators of pools. -/
structure Recrossed (s s' : Store) : Prop where
  positions : s'.positions = s.positions
  stakes : ∀ id t scope, (s'.tickAt id t).stakeFor scope = (s.tickAt id t).stakeFor scope
  netUpTo : ∀ id bound, s'.netUpTo id bound = s.netUpTo id bound
  pools : ∀ id, (s'.pools.get? id).map Pool.bare = (s.pools.get? id).map Pool.bare

/-- Without crossings nothing changes. -/
theorem Recrossed.refl (s : Store) : s.Recrossed s :=
  ⟨rfl, fun _ _ _ => rfl, fun _ _ => rfl, fun _ => rfl⟩

/-- What crossings leave alone is the same before and after. -/
theorem Recrossed.symm {s s' : Store} (h : s.Recrossed s') : s'.Recrossed s :=
  ⟨h.positions.symm, fun id t scope => (h.stakes id t scope).symm,
    fun id t => (h.netUpTo id t).symm, fun id => (h.pools id).symm⟩

/-- What two crossings leave alone, both together do. -/
theorem Recrossed.trans {s s' s'' : Store} (h : s.Recrossed s') (h' : s'.Recrossed s'') :
    s.Recrossed s'' :=
  ⟨h'.positions.trans h.positions,
    fun id t scope => (h'.stakes id t scope).trans (h.stakes id t scope),
    fun id bound => (h'.netUpTo id bound).trans (h.netUpTo id bound),
    fun id => (h'.pools id).trans (h.pools id)⟩

/-- New accumulators of a pool that is kept are a change of this kind. -/
theorem recrossed_setPool {s : Store} {p p' : Pool} (hp : s.pools.get? p'.id = some p)
    (h : p'.bare = p.bare) : s.Recrossed (Storage.setPool s p') := by
  refine ⟨rfl, fun _ _ _ => rfl, fun _ _ => rfl, fun id => ?_⟩
  rw [get?_setPool]
  by_cases hid : p'.id = id
  · rw [if_pos hid, ← hid, hp, Option.map_some, Option.map_some, h]
  · rw [if_neg hid]

/-- A tick that keeps its stakes is a change of this kind. -/
theorem recrossed_setTick {s : Store} {id : PoolId} {t : Tick} {after : TickState}
    (h : ∀ scope, after.stakeFor scope = (s.tickAt id t).stakeFor scope) :
    s.Recrossed (Storage.setTick s id t after) := by
  refine ⟨rfl, fun id' t' scope => ?_, fun id' bound => ?_, fun _ => rfl⟩
  · rw [tickAt_setTick]
    split
    next hat =>
      obtain ⟨rfl, rfl⟩ := hat
      exact h scope
    next => rfl
  · have hnet : after.stake = (s.tickAt id t).stake := h none
    rw [netUpTo_setTick, hnet]
    simp

/-- A pool of the store after is the one before with other accumulators. -/
theorem Recrossed.pool {s s' : Store} (h : s.Recrossed s') {id : PoolId} {p' : Pool}
    (hp' : s'.pools.get? id = some p') :
    ∃ p, s.pools.get? id = some p ∧ p' = { p with incentives := p'.incentives } := by
  have hbare := h.pools id
  rw [hp', Option.map_some] at hbare
  obtain ⟨p, hp, heq⟩ := Option.map_eq_some_iff.1 hbare.symm
  refine ⟨p, hp, ?_⟩
  simpa [Pool.bare, Pool.ext_iff, eq_comm] using heq

end Store

namespace Operation

variable {s s' : Store}

/-- **The effect of a crossing.** -/
theorem crossTick_recrossed {now : Timestamp} {mode : InactiveMode} {id : PoolId} {t : Tick}
    {net : Dec} (h : (crossTick now mode id t).run s = (.ok net, s')) :
    s.Recrossed s' ∧ net = (s.tickAt id t).stake.net := by
  obtain ⟨p, after, p', hp, hafter, hp', rfl, rfl⟩ := crossTick_eq_ok_iff.1 h
  have hstakes := TickState.stakeFor_cross hafter
  have hpool := Pool.accrue_eq hp'
  have hid : p.id = id := Table.key_of_get? hp
  refine ⟨(Store.recrossed_setTick hstakes).trans (Store.recrossed_setPool (p := p) ?_ ?_),
    congrArg Stake.net (hstakes none)⟩
  · rw [hpool, hid]
    exact hp
  · rw [hpool]
    rfl

/-- **The effect of a new incentive.** -/
theorem addIncentive_recrossed {id : PoolId} {incentive : IncentiveId} {u : Unit}
    (h : (addIncentive id incentive).run s = (.ok u, s')) : s.Recrossed s' := by
  obtain ⟨p, hp, rfl⟩ := addIncentive_eq_ok_iff.1 h
  split
  · exact Store.Recrossed.refl s
  · have hid : p.id = id := Table.key_of_get? hp
    refine Store.recrossed_setPool (p := p) ?_ rfl
    exact hid ▸ hp

end Operation

end RangeLedger
