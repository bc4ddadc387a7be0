import RangeLedger.Proofs.Ledger.ActiveLiquidity
import RangeLedger.Proofs.Ledger.Atomicity
import RangeLedger.Proofs.Ledger.Boundaries
import RangeLedger.Proofs.Operation.Reversal

/-!
# Undoing a deposit

A withdrawal right after a deposit, of the liquidity on its receipt, is never refused and pays what
the deposit took. Then everything that counts liquidity or tokens is what it was: the balances, the
positions, the active liquidity, and the stakes of all ticks and of all incentives there. Of the
deposit only traces remain: a first price, the times at ticks, and records that hold nothing.

The operation may not be refused because a ledger owes nothing in any state that calls can lead to,
which follows from what its sums are sums of. The bank may not refuse because the account of the
pool has just received what it has to pay.

## Main results

* `Store.funded_after_trades`: nothing is owed after any run of calls and moves.
* `Ledger.withdraw_undoes_deposit`: the withdrawal and what it restores.
-/

namespace RangeLedger

/-- A store whose sums agree with its positions owes nothing. -/
theorem Store.Balanced.funded {s : Store} (h : s.Balanced) (hticks : s.TicksMatch) : s.Funded := by
  refine ⟨fun id t scope => ?_, fun id p hp => ?_, fun key position hposition => ?_⟩
  · rw [hticks.gross]
    exact Store.liquidityOf_nonneg h.positionsHold _
  · rw [h.active id p hp, h.netUpTo]
    exact Store.liquidityOf_nonneg h.positionsHold _
  · exact (h.held key position hposition).positive

/-- **Nothing is owed after any run of calls and moves.** -/
theorem Store.funded_after_trades {l : Ledger} (hl : l.store.IsFresh) {events : List Event}
    (hevents : ∀ e ∈ events, e.IsTrade) : (l.after events).store.Funded :=
  (balanced_after_trades hl hevents).funded (ticksMatch_after hl events)

namespace Ledger

variable {l l' : Ledger}

/-- A deposit that is accepted can be undone, if the store owes nothing. -/
theorem exists_undo {d : Deposit} {r : Receipt} (hl : l.store.Funded)
    (h : (deposit d).run l = (.ok r, l')) :
    ∃ l'', (withdraw (d.undo r)).run l' = (.ok (r.amount0, r.amount1), l'') ∧
      (∀ owner denom, l''.bank.balance owner denom = l.bank.balance owner denom) ∧
      l''.store.positions = l.store.positions ∧
      (∀ id, (l''.store.pools.get? id).map Pool.liquidity =
        (l.store.pools.get? id).map Pool.liquidity) ∧
      ∀ id t scope, (l''.store.tickAt id t).stakeFor scope =
        (l.store.tickAt id t).stakeFor scope := by
  obtain ⟨s, p, bank, metrics, hrun, hp, hsend, rfl⟩ := deposit_eq_ok h
  obtain ⟨s', hback, hpositions, hstakes, hpools⟩ :=
    Operation.exists_undo hl hrun l.clock.now
  obtain ⟨bank', hreturn, hbalances⟩ := Bank.send_back hsend
  -- the withdrawal pays in the coins and from the account that the deposit was paid in and to
  obtain ⟨q, p', hq, hp', haddress, hcoins⟩ := Operation.withdraw_pool hback
  obtain rfl : q = p := Option.some.inj (hq.symm.trans hp)
  rw [← haddress, ← hcoins] at hreturn
  obtain ⟨metrics', haccepted⟩ := withdraw_of_ok
    (l := { l with store := s, bank := bank, metrics := metrics }) (w := d.undo r) hback hp' hreturn
  exact ⟨_, haccepted, hbalances, hpositions, hpools, hstakes⟩

/-- **A withdrawal undoes the deposit before it.** After every run of calls on a fresh ledger, let a
deposit be accepted. Then the withdrawal of the liquidity on its receipt is accepted and pays the
amounts on its receipt; and every balance, every position, the active liquidity of every pool, and
the gross and the net liquidity of every tick and of every incentive there, are what they were
before the deposit. -/
theorem withdraw_undoes_deposit (hl : l.store.IsFresh) {events : List Event}
    (hevents : ∀ e ∈ events, e.IsCall) {d : Deposit} {r : Receipt}
    (h : (deposit d).run (l.after events) = (.ok r, l')) :
    ∃ l'', (withdraw ⟨d.pool, d.owner, d.lower, d.upper, r.liquidity, d.incentives⟩).run l' =
        (.ok (r.amount0, r.amount1), l'') ∧
      (∀ owner denom, l''.bank.balance owner denom =
        (l.after events).bank.balance owner denom) ∧
      (∀ key, l''.store.positions.get? key = (l.after events).store.positions.get? key) ∧
      (∀ id, (l''.store.pools.get? id).map Pool.liquidity =
        ((l.after events).store.pools.get? id).map Pool.liquidity) ∧
      ∀ id t, (l''.store.tickAt id t).stake = ((l.after events).store.tickAt id t).stake ∧
        ∀ incentive, (l''.store.tickAt id t).stakeOf incentive =
          ((l.after events).store.tickAt id t).stakeOf incentive := by
  obtain ⟨l'', hrun, hbalances, hpositions, hpools, hstakes⟩ :=
    exists_undo (Store.funded_after_trades hl fun e he => (hevents e he).isTrade) h
  refine ⟨l'', hrun, hbalances, fun key => ?_, hpools, fun id t => ⟨hstakes id t none, fun i => ?_⟩⟩
  · rw [hpositions]
  · exact hstakes id t (some i)

/-- A deposit on top of an earlier one over the same range is undone. -/
theorem withdraw_undoes_deposit_sample :
    ∃ r l' l'', (deposit (Sample.deposit 700 900 (-10) 10)).run
        (Sample.ledger.after Sample.neighbours) = (.ok r, l') ∧ r.amount0 = Sample.amount 700 ∧
      (withdraw ⟨Sample.pool.id, Sample.owner, Sample.tick (-10), Sample.tick 10, r.liquidity,
        Table.empty⟩).run l' = (.ok (r.amount0, r.amount1), l'') ∧
      l''.bank.balance Sample.owner "eth" =
        (Sample.ledger.after Sample.neighbours).bank.balance Sample.owner "eth" := by
  obtain ⟨r, l', hrun, hamount⟩ : ∃ r l', (deposit (Sample.deposit 700 900 (-10) 10)).run
      (Sample.ledger.after Sample.neighbours) = (.ok r, l') ∧ r.amount0 = Sample.amount 700 :=
    Call.exists_of_any (by decide +kernel)
  obtain ⟨l'', hback, hbalances, -⟩ :=
    withdraw_undoes_deposit Sample.ledger_isFresh Sample.isCall_neighbours hrun
  exact ⟨r, l', l'', hrun, hamount, hback, hbalances _ _⟩

end Ledger

end RangeLedger
