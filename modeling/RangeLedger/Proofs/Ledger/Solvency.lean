import RangeLedger.Proofs.Ledger.Boundaries
import RangeLedger.Proofs.Ledger.FirstDeposit
import RangeLedger.Proofs.Tick.Order

/-!
# What can be relied on whatever is asked

A ledger can be asked to change a tick directly, or to keep a tick as it is given, and then the
stakes of that tick are no longer the sums over the positions that end there. Two things remain. No
pool and no position ever owes liquidity, because requests that would take more than there is are
refused and nothing else writes to them. And the stakes of every other tick are those sums still, so
that their net sums are covered by their gross sums.

## Main results

* `Ledger.solvent_after`: pools and positions never owe liquidity.
* `Ledger.tickMatches_after`: a tick that is never written directly tells of positions.
* `Store.TickMatches.covered`: the stakes of such a tick are covered.
-/

namespace RangeLedger

/-- The active liquidity is not changed to less than nothing. -/
theorem Pool.shiftActive_nonneg {p : Pool} {lower upper : Tick} {delta : Dec}
    {outcome : Option Pool} (h : p.shiftActive lower upper delta = .ok outcome)
    (hp : 0 ≤ p.liquidity.raw) :
    0 ≤ p.liquidity.raw + if p.InRange lower upper then delta.raw else 0 := by
  rw [shiftActive] at h
  by_cases hrange : p.InRange lower upper
  · rw [if_pos hrange] at h ⊢
    obtain ⟨active, hactive, -⟩ := bind_eq_ok_iff.1 h
    obtain ⟨sum, hsum, hactive⟩ := bind_eq_ok_iff.1 hactive
    rw [← Dec.add_eq_ok_iff.1 hsum]
    split at hactive
    next => cases hactive
    next hnonneg => simpa [Dec.isNegative] using hnonneg
  · rw [if_neg hrange, Int.add_zero]
    exact hp

namespace Store

variable {s s' : Store}

/-- No pool and no position owes liquidity. -/
structure Solvent (s : Store) : Prop where
  active : ∀ id p, s.pools.get? id = some p → 0 ≤ p.liquidity.raw
  positions : s.PositionsHold

namespace Solvent

/-- A fresh store owes nothing. -/
theorem of_isFresh (h : s.IsFresh) : s.Solvent := by
  refine ⟨fun id p hp => ?_, fun key position hposition => ?_⟩
  · rw [(h.pool hp).liquidity]
    exact Int.le_refl 0
  · rw [h.positions] at hposition
    cases hposition

/-- Crossings make no debts. -/
theorem of_recrossed (h : s.Solvent) (hs : s.Recrossed s') : s'.Solvent := by
  refine ⟨fun id p' hp' => ?_, fun key position hposition => ?_⟩
  · obtain ⟨p, hp, heq⟩ := hs.pool hp'
    rw [heq]
    exact h.active id p hp
  · rw [hs.positions] at hposition
    exact h.positions key position hposition

/-- A first price makes no debts. -/
theorem of_pricedAs (h : s.Solvent) {found p : Pool} {amount0 amount1 : Amount} {id : PoolId}
    (hfound : s.pools.get? id = some found)
    (hs : Operation.PricedAs s found amount0 amount1 p s') : s'.Solvent := by
  refine ⟨fun id' q' hq' => ?_, fun key position hposition => ?_⟩
  · obtain ⟨q, hq, heq⟩ := hs.pool hfound hq'
    rw [heq]
    exact h.active id' q hq
  · rw [hs.positions_eq] at hposition
    exact h.positions key position hposition

/-- **One step**: a change of a position that leaves it no debt. -/
theorem of_changePosition (h : s.Solvent) {now : Timestamp} {position : Position} {delta : Dec}
    {u : Unit} (hrest : 0 ≤ position.liquidity.raw + delta.raw)
    (hrun : (Operation.changePosition now position delta).run s = (.ok u, s')) : s'.Solvent := by
  have hs := Operation.changePosition_repositioned hrun
  obtain ⟨p, _, _, _, _, hp, -, -, hshift, -, -⟩ := Operation.changePosition_eq_ok_iff.1 hrun
  refine ⟨fun id q hq => ?_, fun key held hheld => ?_⟩
  · obtain ⟨p', active, hp', hactive, hpools⟩ := hs.pools
    obtain rfl : p = p' := Option.some.inj (hp.symm.trans hp')
    rw [hpools] at hq
    split at hq
    next =>
      cases hq
      change 0 ≤ active.raw
      rw [hactive]
      exact Pool.shiftActive_nonneg hshift (h.active _ p hp)
    next => exact h.active id q hq
  · obtain ⟨liquidity, hadd, -, hpositions⟩ := hs.liquidity
    rw [hpositions] at hheld
    split at hheld
    next =>
      split at hheld
      next => cases hheld
      next hzero =>
        cases hheld
        have hraw := Dec.add_eq_ok_iff.1 hadd
        have hne : liquidity.raw ≠ 0 := by simpa [Dec.isZero] using hzero
        change 0 < liquidity.raw
        omega
    next => exact h.positions key held hheld

/-- **A deposit** makes no debts. -/
theorem of_deposit (h : s.Solvent) {now : Timestamp} {c : Config} {d : Deposit} {r : Receipt}
    (hrun : (Operation.deposit now c d).run s = (.ok r, s')) : s'.Solvent := by
  obtain ⟨found, p, s₁, position, hfound, -, -, hpriced, hquote, htarget, hchange⟩ :=
    Operation.deposit_eq_ok_iff.1 hrun
  obtain ⟨_, _, _, _, _, _, hpositive, -⟩ := Operation.quote_eq_ok_iff.1 hquote
  have hfirst := h.of_pricedAs hfound hpriced
  have hbefore := htarget.liquidity_nonneg hfirst.positions
  exact hfirst.of_changePosition (by omega) hchange

/-- **A withdrawal** makes no debts. -/
theorem of_withdraw (h : s.Solvent) {now : Timestamp} {c : Config} {w : Withdrawal}
    {out : Amount × Amount} (hrun : (Operation.withdraw now c w).run s = (.ok out, s')) :
    s'.Solvent := by
  obtain ⟨p, position, amounts, -, -, -, -, hpositive, hheld, -, hchange, -, -⟩ :=
    Operation.withdraw_eq_ok_iff.1 hrun
  have hneg : w.liquidity.neg.raw = -w.liquidity.raw := Dec.raw_neg (by rw [Dec.limit]; omega)
  exact h.of_changePosition (by omega) hchange

end Solvent

/-- **The stakes of a tick that tells of positions are covered**: what begins there and what ends
there are both part of what touches it. -/
theorem TickMatches.covered {id : PoolId} {t : Tick} (h : s.TickMatches id t)
    (hheld : s.PositionsHold) (scope : Scope) : ((s.tickAt id t).stakeFor scope).Covered := by
  obtain ⟨hbegins, hends, hbegins', hends'⟩ := hheld.touching id t scope
  have hgross := h.gross scope
  have hnet := h.net scope
  exact ⟨by omega, by omega⟩

end Store

/-! ### Whatever is asked -/

/-- An action writes to a tick directly, not on behalf of a position. -/
def Action.WritesTick (id : PoolId) (t : Tick) : Action → Prop
  | request (.changeTick id' t' _ _ _) => id' = id ∧ t' = t
  | setTick id' t' _ => id' = id ∧ t' = t
  | _ => False

section

variable {inv : Store → Prop} {kind : Action → Prop}
  (hdeposit : ∀ s s' now c d r, (Operation.deposit now c d).run s = (.ok r, s') → inv s → inv s')
  (hwithdraw : ∀ s s' now c w out,
    (Operation.withdraw now c w).run s = (.ok out, s') → inv s → inv s')
  (hrecrossed : ∀ s s', s.Recrossed s' → inv s → inv s')
  (hwrite : ∀ (a : Action) s id t state, kind a → a.WritesTick id t → inv s →
    inv (Storage.setTick s id t state))

include hdeposit hwithdraw hrecrossed hwrite

/-- **One step**: what an action of a kind keeps. -/
theorem Action.store_apply {a : Action} (ha : kind a) {l : Ledger} (h : inv l.store) :
    inv (a.apply l).store := by
  cases a with
  | setTick id t state => exact hwrite _ _ _ _ _ ha ⟨rfl, rfl⟩ h
  | setTime time => exact h
  | request r =>
    change inv (r.call.run l).2.store
    rcases hrun : r.call.run l with ⟨e | answer, l'⟩
    · rw [(Request.refused_by hrun).1]
      exact h
    obtain ⟨hsettled, -⟩ := Request.settled hrun
    cases r with
    | deposit d => exact hdeposit _ _ _ _ _ _ hsettled h
    | withdraw w => exact hwithdraw _ _ _ _ _ _ hsettled h
    | crossTick id t => exact hrecrossed _ _ (Operation.crossTick_recrossed hsettled).1 h
    | addIncentive id incentive =>
      exact hrecrossed _ _ (Operation.addIncentive_recrossed hsettled) h
    | changeTick id t edge delta ids =>
      obtain ⟨_, state, -, -, heq⟩ := Operation.changeTick_eq_ok_iff.1 hsettled
      change inv l'.store
      rw [heq]
      exact hwrite _ _ _ _ _ ha ⟨rfl, rfl⟩ h

variable (inv kind)

/-- **The induction over actions** of a kind, for properties of the store. -/
theorem Ledger.store_after_actions {l : Ledger} (h : inv l.store) {actions : List Action}
    (hactions : ∀ a ∈ actions, kind a) : inv (l.afterActions actions).store := by
  induction actions generalizing l with
  | nil => exact h
  | cons a rest ih =>
    exact ih (a.store_apply hdeposit hwithdraw hrecrossed hwrite (hactions a List.mem_cons_self) h)
      fun b hb => hactions b (List.mem_cons_of_mem a hb)

end

namespace Ledger

variable {l : Ledger}

/-- **Pools and positions never owe liquidity**, whatever is asked of a fresh ledger. -/
theorem solvent_after (hl : l.store.IsFresh) (actions : List Action) :
    (l.afterActions actions).store.Solvent :=
  store_after_actions Store.Solvent (fun _ => True)
    (fun _ _ _ _ _ _ hrun h => h.of_deposit hrun) (fun _ _ _ _ _ _ hrun h => h.of_withdraw hrun)
    (fun _ _ hs h => h.of_recrossed hs)
    (fun _ _ _ _ _ _ _ h => ⟨h.active, h.positions⟩) (.of_isFresh hl) fun _ _ => trivial

/-- **A tick that is never written directly tells of positions**, whatever else is asked. -/
theorem tickMatches_after (hl : l.store.IsFresh) {id : PoolId} {t : Tick} {actions : List Action}
    (hactions : ∀ a ∈ actions, ¬a.WritesTick id t) :
    (l.afterActions actions).store.TickMatches id t := by
  refine store_after_actions (fun s => s.TickMatches id t) (fun a => ¬a.WritesTick id t)
    (fun _ _ _ _ _ _ hrun h => h.of_deposit hrun) (fun _ _ _ _ _ _ hrun h => h.of_withdraw hrun)
    (fun _ _ hs h => h.of_recrossed hs) (fun a s id' t' state ha hat h => ?_) (hl.tickMatches id t)
    hactions
  refine h.of_stakes rfl fun scope => ?_
  rw [Store.tickAt_setTick, if_neg]
  rintro ⟨rfl, rfl⟩
  exact ha hat

end Ledger

end RangeLedger
