import RangeLedger.Proofs.Ledger.Crossings
import RangeLedger.Proofs.Operation.Accounts

/-!
# Accumulators

The accumulator of an incentive and the outside values at the ticks are never compared by the
ledger, and the latter are overwritten at every crossing, by values that depend on the mode, on a
clock that may be set back, and on the liquidity at the time. Still the accumulator is never less
than all outside values together, and never decreases.

What carries this is that a crossing adds to the accumulator just the value that it writes to the
tick, so the tick may lose its old value, but what it gains the accumulator gains too. A crossing
without liquidity in the record does neither. An incentive starts at zero on a pool, and by then no
tick has a record of it, as records are started for incentives that run on the pool only.

From this it follows that a value inside a range is answered, and is not negative, whenever the
current tick lies within the range.

## Main results

* `Ledger.accounts_after`: the induction for what is kept for incentives.
* `Store.accrued_after`: accumulators cover the outside values after every run.
* `Store.growsTo_after`: accumulators never decrease.
* `Ledger.accumulators_grow_and_cover`: both, and what the ledger answers within a range.
-/

namespace RangeLedger

/-! ### Runs -/

/-- **The induction for what is kept for incentives**: changes of ticks, crossings and new
incentives are all that matters. -/
theorem Ledger.accounts_after {l : Ledger} (inv : Store → Prop)
    (hkeeps : ∀ s s', s.KeepsIncentives s' → inv s → inv s')
    (hchange : ∀ s s' now id t edge delta ids,
      (Operation.changeTick now id t edge delta ids).run s = (.ok (), s') → inv s → inv s')
    (hcross : ∀ s s' now id t net,
      (Operation.crossTick now l.config.inactiveMode id t).run s = (.ok net, s') → inv s → inv s')
    (hincentive : ∀ s s' id incentive, (Operation.addIncentive id incentive).run s = (.ok (), s') →
      inv s → inv s')
    (h : inv l.store) (events : List Event) : inv (l.after events).store := by
  refine Ledger.store_after_steps inv ?_ ?_ hcross hincentive
    (fun s p _ _ _ hp => hkeeps _ _ (Store.keepsIncentives_setPool hp rfl)) h events
  · intro s s' now d r hrun hs
    obtain ⟨s₁, s₂, s₃, hpriced, hlower, hupper, hrest⟩ := Operation.deposit_accounts hrun
    exact hkeeps _ _ hrest (hchange _ _ _ _ _ _ _ _ hupper
      (hchange _ _ _ _ _ _ _ _ hlower (hkeeps _ _ hpriced hs)))
  · intro s s' now w out hrun hs
    obtain ⟨s₁, s₂, hlower, hupper, hrest⟩ := Operation.withdraw_accounts hrun
    exact hkeeps _ _ hrest (hchange _ _ _ _ _ _ _ _ hupper (hchange _ _ _ _ _ _ _ _ hlower hs))

namespace Store

variable {s s' s'' : Store} {id : PoolId} {incentive : IncentiveId}

/-! ### Outside values together -/

/-- The outside values of an incentive at all ticks kept for a pool, together. -/
def outsideTotal (s : Store) (id : PoolId) (incentive : IncentiveId) : Int :=
  (s.ticksOf id).entries.sum fun entry => (entry.2.outsideOf incentive).raw

/-- The outside values of a pool depend on its ticks alone. -/
theorem outsideTotal_congr (h : s'.ticksOf id = s.ticksOf id) (incentive : IncentiveId) :
    s'.outsideTotal id incentive = s.outsideTotal id incentive := by
  rw [outsideTotal, h, outsideTotal]

/-- What is written at a tick is counted for what was held there. -/
theorem outsideTotal_setTick (id : PoolId) (t : Tick) (state : TickState) (id' : PoolId)
    (incentive : IncentiveId) :
    (Storage.setTick s id t state).outsideTotal id' incentive = s.outsideTotal id' incentive +
      if id = id' then (state.outsideOf incentive).raw - ((s.tickAt id t).outsideOf incentive).raw
      else 0 :=
  sum_setTick id t state id' _ rfl

/-- An entry that is kept for a pool is the state of its tick. -/
theorem tickAt_of_mem {entry : Tick × TickState} (h : entry ∈ (s.ticksOf id).entries.toList) :
    s.tickAt id entry.1 = entry.2 := by
  rw [tickAt, Map.get?_eq_some_iff_mem.2 h, Option.getD_some]

/-- Two ticks have no more than all ticks together. -/
theorem outsideOf_add_le_total (h : ∀ t, 0 ≤ ((s.tickAt id t).outsideOf incentive).raw)
    {lower upper : Tick} (hne : lower ≠ upper) :
    ((s.tickAt id lower).outsideOf incentive).raw +
      ((s.tickAt id upper).outsideOf incentive).raw ≤ s.outsideTotal id incentive := by
  have hone (t : Tick) : ((s.tickAt id t).outsideOf incentive).raw =
      (s.ticksOf id).entries.sum fun entry =>
        if entry.1 = t then (entry.2.outsideOf incentive).raw else 0 := by
    refine Eq.symm ((Table.sum_ite_key (s.ticksOf id).entries
      (fun entry => (entry.2.outsideOf incentive).raw) t).trans ?_)
    rw [tickAt, Map.get?]
    cases (s.ticksOf id).entries.get? t with
    | none => rfl
    | some entry => rfl
  rw [hone, hone, ← Table.sum_add]
  refine Table.sum_le_sum fun entry hentry => ?_
  have hnonneg := tickAt_of_mem hentry ▸ h entry.1
  by_cases hlower : entry.1 = lower
  · rw [if_pos hlower, if_neg fun hupper => hne (hlower.symm.trans hupper), Int.add_zero]
  · rw [if_neg hlower]
    split_ifs <;> omega

/-! ### The invariant -/

/-- The accumulators of a store cover the outside values at its ticks. -/
structure Accrued (s : Store) : Prop where
  gross : ∀ id t incentive, 0 ≤ ((s.tickAt id t).stakeOf incentive).gross.raw
  outside : ∀ id t incentive, 0 ≤ ((s.tickAt id t).outsideOf incentive).raw
  /-- Ticks have records only of incentives that run on their pool. -/
  running : ∀ id p, s.pools.get? id = some p → ∀ t incentive,
    (s.tickAt id t).incentives.contains incentive = true → p.incentives.contains incentive = true
  covered : ∀ id p, s.pools.get? id = some p → ∀ incentive accumulator,
    p.incentives.get? incentive = some accumulator →
      s.outsideTotal id incentive ≤ accumulator.secondsPerLiquidity.raw

/-- A fresh store has accrued what it should: nothing. -/
theorem IsFresh.accrued (h : s.IsFresh) : s.Accrued := by
  refine ⟨fun id t incentive => ?_, fun id t incentive => ?_, fun id p hp t incentive hkept => ?_,
    fun id p hp incentive accumulator hacc => ?_⟩
  · rw [h.tickAt_eq]
    exact Int.le_refl 0
  · rw [h.tickAt_eq]
    exact Int.le_refl 0
  · rw [h.tickAt_eq] at hkept
    cases hkept
  · rw [(h.pool hp).accumulators incentive accumulator hacc, outsideTotal, h.ticksOf_eq]
    exact Int.le_refl 0

/-- A change that is nothing to incentives keeps what has accrued. -/
theorem Accrued.of_keepsIncentives (h : s.Accrued) (hs : s.KeepsIncentives s') : s'.Accrued := by
  have htick (id : PoolId) (t : Tick) : s'.tickAt id t = s.tickAt id t :=
    tickAt_congr (hs.ticks id) t
  refine ⟨fun id t incentive => ?_, fun id t incentive => ?_, fun id p' hp' t incentive hkept => ?_,
    fun id p' hp' incentive accumulator hacc => ?_⟩
  · rw [htick]
    exact h.gross id t incentive
  · rw [htick]
    exact h.outside id t incentive
  · obtain ⟨p, hp, heq⟩ := hs.pool hp'
    rw [htick] at hkept
    rw [heq]
    exact h.running id p hp t incentive hkept
  · obtain ⟨p, hp, heq⟩ := hs.pool hp'
    rw [heq] at hacc
    rw [outsideTotal_congr (hs.ticks id)]
    exact h.covered id p hp incentive accumulator hacc

/-- **A change of a tick** keeps all outside values and starts records for running incentives. -/
theorem Accrued.of_changeTick (h : s.Accrued) {now : Timestamp} {id : PoolId} {t : Tick}
    {edge : Edge} {delta : Dec} {ids : OrderedSet IncentiveId}
    (hrun : (Operation.changeTick now id t edge delta ids).run s = (.ok (), s')) : s'.Accrued := by
  obtain ⟨p, after, hp, hafter, rfl⟩ := Operation.changeTick_eq_ok_iff.1 hrun
  have houtside (incentive : IncentiveId) := (TickState.outsideOf_change hafter incentive).1
  refine ⟨fun id' t' incentive => ?_, fun id' t' incentive => ?_,
    fun id' q hq t' incentive hkept => ?_, fun id' q hq incentive accumulator hacc => ?_⟩
  · rw [tickAt_setTick]
    split
    next =>
      -- a change that lowers the stake below nothing would have been refused
      have hscope := TickState.stakeFor_change hafter (some incentive)
      split at hscope
      · exact (Stake.shift_eq_ok_iff.1 hscope).2.1
      · change 0 ≤ (after.stakeFor (some incentive)).gross.raw
        rw [hscope]
        exact h.gross id t incentive
    next => exact h.gross id' t' incentive
  · rw [tickAt_setTick]
    split
    next =>
      rw [houtside]
      exact h.outside id t incentive
    next => exact h.outside id' t' incentive
  · rw [tickAt_setTick] at hkept
    split at hkept
    next hat =>
      obtain ⟨rfl, rfl⟩ := hat
      obtain rfl : q = p := Option.some.inj (hq.symm.trans hp)
      exact ((TickState.outsideOf_change hafter incentive).2.1 hkept).elim
        (h.running _ q hp t incentive) fun hruns => hruns
    next => exact h.running id' q hq t' incentive hkept
  · rw [outsideTotal_setTick, houtside]
    have hcovered := h.covered id' q hq incentive accumulator hacc
    split_ifs <;> omega

/-- What a crossing adds to an accumulator is at least what it adds to the outside values. -/
theorem Accrued.covered_of_cross (h : s.Accrued) {mode : InactiveMode} {age : Duration} {t : Tick}
    {after : TickState} {p p' : Pool} (hp : s.pools.get? id = some p)
    (hafter : (s.tickAt id t).cross mode age = .ok after) (hp' : p.accrue after.incentives = .ok p')
    {accumulator : PoolIncentive} (hacc : p'.incentives.get? incentive = some accumulator) :
    s.outsideTotal id incentive + ((after.outsideOf incentive).raw -
      ((s.tickAt id t).outsideOf incentive).raw) ≤ accumulator.secondsPerLiquidity.raw := by
  obtain ⟨hnone, hsome⟩ := Pool.get?_accrue hp' incentive
  cases hbefore : p.incentives.get? incentive with
  | none =>
    rw [hnone hbefore] at hacc
    cases hacc
  | some before =>
    obtain ⟨accumulator', hacc', hraw⟩ := hsome before hbefore
    obtain rfl : accumulator' = accumulator := Option.some.inj (hacc'.symm.trans hacc)
    have hcovered := h.covered id p hp incentive before hbefore
    have hyield := TickState.outsideOf_le_of_cross hafter (h.gross id t incentive)
      (h.outside id t incentive)
    omega

/-- **A crossing** adds to the accumulator what it writes to the tick. -/
theorem Accrued.of_crossTick (h : s.Accrued) {now : Timestamp} {mode : InactiveMode} {id : PoolId}
    {t : Tick} {net : Dec} (hrun : (Operation.crossTick now mode id t).run s = (.ok net, s')) :
    s'.Accrued := by
  obtain ⟨p, after, p', hp, hafter, hp', hticks, hpools⟩ := Operation.crossTick_accounts hrun
  have htick (id' : PoolId) (t' : Tick) :
      s'.tickAt id' t' = if id = id' ∧ t = t' then after else s.tickAt id' t' := by
    rw [tickAt_congr (hticks id'), tickAt_setTick]
  have hgross (incentive : IncentiveId) := h.gross id t incentive
  have houtside (incentive : IncentiveId) := h.outside id t incentive
  refine ⟨fun id' t' incentive => ?_, fun id' t' incentive => ?_,
    fun id' q hq t' incentive hkept => ?_, fun id' q hq incentive accumulator hacc => ?_⟩
  · rw [htick]
    split
    next =>
      change 0 ≤ (after.stakeFor (some incentive)).gross.raw
      rw [TickState.stakeFor_cross hafter]
      exact hgross incentive
    next => exact h.gross id' t' incentive
  · rw [htick]
    split
    next => exact TickState.outsideOf_nonneg_of_cross hafter (hgross incentive) (houtside incentive)
    next => exact h.outside id' t' incentive
  · rw [hpools] at hq
    rw [htick] at hkept
    split at hq
    next hid =>
      subst hid
      cases hq
      refine Pool.contains_accrue hp' ?_
      split at hkept
      next => exact h.running id p hp t incentive (TickState.contains_cross hafter _ ▸ hkept)
      next => exact h.running id p hp t' incentive hkept
    next hid =>
      rw [if_neg fun hat => hid hat.1] at hkept
      exact h.running id' q hq t' incentive hkept
  · rw [hpools] at hq
    rw [outsideTotal_congr (hticks id'), outsideTotal_setTick]
    split at hq
    next hid =>
      subst hid
      cases hq
      rw [if_pos rfl]
      exact h.covered_of_cross hp hafter hp' hacc
    next hid =>
      rw [if_neg hid, Int.add_zero]
      exact h.covered id' q hq incentive accumulator hacc

/-- Without a record there is no outside value. -/
theorem Accrued.outsideTotal_eq_zero (h : s.Accrued) {p : Pool} (hp : s.pools.get? id = some p)
    (hnone : p.incentives.get? incentive = none) : s.outsideTotal id incentive = 0 := by
  refine Table.sum_eq_zero fun entry hentry => ?_
  have hmissing : entry.2.incentives.get? incentive = none := by
    rw [← tickAt_of_mem hentry, ← Option.not_isSome_iff_eq_none]
    intro hkept
    have hruns := h.running id p hp entry.1 incentive hkept
    rw [Map.contains, hnone] at hruns
    cases hruns
  rw [TickState.outsideOf, hmissing]
  rfl

/-- **Within a range a value is answered**, and it is not negative. -/
theorem Accrued.exists_valueInside (h : s.Accrued) {p : Pool} (hp : s.pools.get? id = some p)
    {accumulator : PoolIncentive} (hacc : p.incentives.get? incentive = some accumulator)
    {lower upper : Tick} (hordered : lower < upper) (hlower : lower ≤ p.tick)
    (hupper : p.tick < upper) :
    ∃ value, valueInside p.tick lower upper accumulator.secondsPerLiquidity
      ((s.tickAt id lower).outsideOf incentive) ((s.tickAt id upper).outsideOf incentive) =
        .ok value ∧ 0 ≤ value.raw := by
  have hboth := outsideOf_add_le_total (h.outside id · incentive)
    fun heq : lower = upper => absurd hordered (heq ▸ Int.lt_irrefl lower.val)
  exact RangeLedger.exists_valueInside hlower hupper (h.outside id lower incentive)
    (h.outside id upper incentive) (hboth.trans (h.covered id p hp incentive accumulator hacc))

/-- **A new incentive** starts at zero, and so do the ticks. -/
theorem Accrued.of_addIncentive (h : s.Accrued) {id : PoolId} {incentive : IncentiveId}
    (hrun : (Operation.addIncentive id incentive).run s = (.ok (), s')) : s'.Accrued := by
  obtain ⟨hticks, p, p', hp, hincentives, hpools⟩ := Operation.addIncentive_accounts hrun
  have htick (id : PoolId) (t : Tick) : s'.tickAt id t = s.tickAt id t := tickAt_congr (hticks id) t
  refine ⟨fun id' t' incentive' => ?_, fun id' t' incentive' => ?_,
    fun id' q hq t' incentive' hkept => ?_, fun id' q hq incentive' accumulator hacc => ?_⟩
  · rw [htick]
    exact h.gross id' t' incentive'
  · rw [htick]
    exact h.outside id' t' incentive'
  · rw [hpools] at hq
    rw [htick] at hkept
    split at hq
    next hid =>
      subst hid
      cases hq
      obtain ⟨accumulator, hacc⟩ :=
        Option.isSome_iff_exists.1 (h.running id p hp t' incentive' hkept)
      rw [Map.contains, hincentives, hacc]
      rfl
    next => exact h.running id' q hq t' incentive' hkept
  · rw [hpools] at hq
    rw [outsideTotal_congr (hticks id')]
    split at hq
    next hid =>
      subst hid
      cases hq
      cases hbefore : p.incentives.get? incentive' with
      | some before =>
        rw [hincentives, hbefore, Option.some_or] at hacc
        cases hacc
        exact h.covered id p hp incentive' _ hbefore
      | none =>
        rw [hincentives, hbefore, Option.none_or] at hacc
        split at hacc
        · cases hacc
          exact Int.le_of_eq (h.outsideTotal_eq_zero hp hbefore)
        · cases hacc
    next => exact h.covered id' q hq incentive' accumulator hacc

/-- **Accumulators cover the outside values** after every run, whatever the times and the mode. -/
theorem accrued_after {l : Ledger} (hl : l.store.IsFresh) (events : List Event) :
    (l.after events).store.Accrued :=
  Ledger.accounts_after Accrued (fun _ _ hs h => h.of_keepsIncentives hs)
    (fun _ _ _ _ _ _ _ _ hrun h => h.of_changeTick hrun)
    (fun _ _ _ _ _ _ hrun h => h.of_crossTick hrun)
    (fun _ _ _ _ hrun h => h.of_addIncentive hrun) hl.accrued events

/-! ### Growth -/

/-- Every accumulator is still there, and is no less. -/
def GrowsTo (s s' : Store) : Prop :=
  ∀ id p incentive accumulator, s.pools.get? id = some p →
    p.incentives.get? incentive = some accumulator → ∃ p' accumulator',
      s'.pools.get? id = some p' ∧ p'.incentives.get? incentive = some accumulator' ∧
        accumulator.secondsPerLiquidity ≤ accumulator'.secondsPerLiquidity

/-- An accumulator is no less than itself. -/
theorem GrowsTo.refl (s : Store) : s.GrowsTo s :=
  fun _ p _ accumulator hp hacc => ⟨p, accumulator, hp, hacc, Int.le_refl _⟩

/-- Growth after growth is growth. -/
theorem GrowsTo.trans (h : s.GrowsTo s') (h' : s'.GrowsTo s'') : s.GrowsTo s'' := by
  intro id p incentive accumulator hp hacc
  obtain ⟨p', accumulator', hp', hacc', hle⟩ := h id p incentive accumulator hp hacc
  obtain ⟨p'', accumulator'', hp'', hacc'', hle'⟩ := h' id p' incentive accumulator' hp' hacc'
  exact ⟨p'', accumulator'', hp'', hacc'', Int.le_trans hle hle'⟩

/-- Accumulators that are kept have grown, by nothing. -/
theorem KeepsIncentives.growsTo (h : s.KeepsIncentives s') : s.GrowsTo s' := by
  intro id p incentive accumulator hp hacc
  obtain ⟨p', hp', heq⟩ := h.symm.pool hp
  rw [heq] at hacc
  exact ⟨p', accumulator, hp', hacc, Int.le_refl _⟩

/-- **A crossing takes nothing from an accumulator**, as nothing that is added is negative. -/
theorem Accrued.growsTo_of_crossTick (h : s.Accrued) {now : Timestamp} {mode : InactiveMode}
    {id : PoolId} {t : Tick} {net : Dec}
    (hrun : (Operation.crossTick now mode id t).run s = (.ok net, s')) : s.GrowsTo s' := by
  obtain ⟨p, after, p', hp, hafter, hp', -, hpools⟩ := Operation.crossTick_accounts hrun
  intro id' q incentive accumulator hq hacc
  rw [hpools]
  split
  next hid =>
    subst hid
    obtain rfl : q = p := Option.some.inj (hq.symm.trans hp)
    obtain ⟨accumulator', hacc', hraw⟩ := (Pool.get?_accrue hp' incentive).2 accumulator hacc
    have hyield := TickState.outsideOf_le_of_cross hafter (h.gross id t incentive)
      (h.outside id t incentive)
    exact ⟨p', accumulator', rfl, hacc', Dec.le_def.2 (by omega)⟩
  next => exact ⟨q, accumulator, hq, hacc, Int.le_refl _⟩

/-- **A new incentive**: its accumulator begins, and the others are kept. -/
theorem growsTo_of_addIncentive {id : PoolId} {incentive : IncentiveId}
    (hrun : (Operation.addIncentive id incentive).run s = (.ok (), s')) : s.GrowsTo s' := by
  obtain ⟨-, p, p', hp, hincentives, hpools⟩ := Operation.addIncentive_accounts hrun
  intro id' q incentive' accumulator hq hacc
  rw [hpools]
  split
  next hid =>
    subst hid
    obtain rfl : q = p := Option.some.inj (hq.symm.trans hp)
    refine ⟨p', accumulator, rfl, ?_, Int.le_refl _⟩
    rw [hincentives, hacc, Option.some_or]
  next => exact ⟨q, accumulator, hq, hacc, Int.le_refl _⟩

/-- **Accumulators never decrease**, from any state of a run to any later one. -/
theorem growsTo_after {l : Ledger} (hl : l.store.Accrued) (events : List Event) :
    l.store.GrowsTo (l.after events).store := by
  refine (Ledger.accounts_after (fun s => s.Accrued ∧ l.store.GrowsTo s) ?_ ?_ ?_ ?_
    ⟨hl, .refl _⟩ events).2
  · rintro s s' hs ⟨h, hgrows⟩
    exact ⟨h.of_keepsIncentives hs, hgrows.trans hs.growsTo⟩
  · rintro s s' now id t edge delta ids hrun ⟨h, hgrows⟩
    refine ⟨h.of_changeTick hrun, hgrows.trans ?_⟩
    obtain ⟨p, after, -, -, rfl⟩ := Operation.changeTick_eq_ok_iff.1 hrun
    exact .refl s
  · rintro s s' now id t net hrun ⟨h, hgrows⟩
    exact ⟨h.of_crossTick hrun, hgrows.trans (h.growsTo_of_crossTick hrun)⟩
  · rintro s s' id incentive hrun ⟨h, hgrows⟩
    exact ⟨h.of_addIncentive hrun, hgrows.trans (growsTo_of_addIncentive hrun)⟩

end Store

namespace Ledger

variable {l : Ledger}

/-- What the ledger answers for a value inside a range is what the operation comes to. -/
theorem run_secondsInside {id : PoolId} {lower upper : Tick} {incentive : IncentiveId} {value : Dec}
    (h : (Operation.secondsInside l.config id lower upper incentive).run l.store =
      (.ok value, l.store)) : (secondsInside id lower upper incentive).run l = (.ok value, l) :=
  congrArg (fun outcome => (outcome, l)) (congrArg Prod.fst h)

/-- **Accumulators grow and cover.** After every run on a fresh ledger, of calls that cross ticks in
either mode and of moves of the price, with a clock that is set forward and back, let an incentive
run on a pool. Then its accumulator will never be less, after whatever more happens; it is at least
the sum of the outside values of the incentive over all ticks of the pool; and for every range that
the pool admits and that contains the current tick the ledger answers a value inside it, which is
not negative. Besides, no record at any tick has a negative outside value. -/
theorem accumulators_grow_and_cover (hl : l.store.IsFresh) (events more : List Event)
    (id : PoolId) :
    (∀ p incentive accumulator, (l.after events).store.pools.get? id = some p →
      p.incentives.get? incentive = some accumulator →
      (∃ p' accumulator', (l.after (events ++ more)).store.pools.get? id = some p' ∧
        p'.incentives.get? incentive = some accumulator' ∧
        accumulator.secondsPerLiquidity ≤ accumulator'.secondsPerLiquidity) ∧
      (((l.after events).store.ticksOf id).values.map fun state =>
        (state.outsideOf incentive).raw).sum ≤ accumulator.secondsPerLiquidity.raw ∧
      ∀ lower upper, p.checkRange (l.after events).config lower upper = .ok () →
        lower ≤ p.tick → p.tick < upper → ∃ value,
          (secondsInside id lower upper incentive).run (l.after events) =
            (.ok value, l.after events) ∧ 0 ≤ value.raw) ∧
    ∀ t state incentive r, ((l.after events).store.ticksOf id).get? t = some state →
      state.incentives.get? incentive = some r → 0 ≤ r.outside.raw := by
  have haccrued := Store.accrued_after hl events
  refine ⟨fun p incentive accumulator hp hacc =>
    ⟨?_, ?_, fun lower upper hrange hlower hupper => ?_⟩, fun t state incentive r hstate hr => ?_⟩
  · rw [after_append]
    exact Store.growsTo_after haccrued more id p incentive accumulator hp hacc
  · rw [Map.values, List.map_map]
    exact haccrued.covered id p hp incentive accumulator hacc
  · obtain ⟨value, hvalue, hnonneg⟩ := haccrued.exists_valueInside hp hacc
      (Pool.checkRange_eq_ok_iff.1 hrange).2.2.2.1 hlower hupper
    exact ⟨value, run_secondsInside (Operation.secondsInside_eq_ok_iff.2
      ⟨p, accumulator, hp, hrange, hacc, hvalue, rfl⟩), hnonneg⟩
  · have hnonneg := haccrued.outside id t incentive
    rw [TickState.outsideOf, Store.tickAt, hstate, Option.getD_some, hr] at hnonneg
    exact hnonneg

end Ledger

namespace Sample

/-- An incentive. -/
def incentive : IncentiveId := ⟨7, by decide, by decide⟩

/-- A deposit of the owner that is committed to the incentive. -/
def committed (amount0 amount1 lower upper : Int) : Deposit :=
  { deposit amount0 amount1 lower upper with incentives := Table.ofList [incentive] }

/-- A committed deposit, of which one boundary is crossed twice while the clock goes back. -/
def crossed : List Event :=
  [.addIncentive pool.id incentive, .deposit (committed 500 500 (-10) 10),
    .setTime (time 100), .cross pool.id (tick 10), .setTime (time 50), .cross pool.id (tick 10)]

end Sample

/-- The second crossing writes half of what the first one did, and adds it to the first. -/
theorem Ledger.accumulators_grow_and_cover_sample :
    ∃ p accumulator value, (Sample.ledger.after Sample.crossed).store.pools.get? Sample.pool.id =
        some p ∧ p.incentives.get? Sample.incentive = some accumulator ∧
      accumulator.secondsPerLiquidity.raw = 149955010497900 ∧
      (Ledger.secondsInside Sample.pool.id (Sample.tick (-10)) (Sample.tick 10)
        Sample.incentive).run (Sample.ledger.after Sample.crossed) =
          (.ok value, Sample.ledger.after Sample.crossed) ∧ 0 ≤ value.raw := by
  have hstored : ((Sample.ledger.after Sample.crossed).store.pools.get? Sample.pool.id).any
      (fun p => decide (p.checkRange (Sample.ledger.after Sample.crossed).config
          (Sample.tick (-10)) (Sample.tick 10) = .ok () ∧ p.tick = Sample.tick 0) &&
        (p.incentives.get? Sample.incentive).any fun accumulator =>
          decide (accumulator.secondsPerLiquidity.raw = 149955010497900)) = true := by
    decide +kernel
  obtain ⟨p, hp, hfacts⟩ := (Option.any_eq_true _ _).1 hstored
  rw [Bool.and_eq_true, decide_eq_true_eq] at hfacts
  obtain ⟨⟨hrange, htick⟩, hfound⟩ := hfacts
  obtain ⟨accumulator, hacc, hraw⟩ := (Option.any_eq_true _ _).1 hfound
  obtain ⟨-, -, hinside⟩ := (Ledger.accumulators_grow_and_cover Sample.ledger_isFresh
    Sample.crossed [] Sample.pool.id).1 p Sample.incentive accumulator hp hacc
  obtain ⟨value, hvalue, hnonneg⟩ := hinside _ _ hrange (htick ▸ by decide) (htick ▸ by decide)
  exact ⟨p, accumulator, value, hp, hacc, of_decide_eq_true hraw, hvalue, hnonneg⟩

end RangeLedger
