import RangeLedger.Proofs.Ledger.ActiveLiquidity
import RangeLedger.Proofs.Ledger.Admission
import RangeLedger.Proofs.Ledger.Boundaries
import RangeLedger.Proofs.Operation.Refusals
import RangeLedger.Proofs.Operation.Reversal

/-!
# Withdrawals that are asked for rightly

Whoever asks for liquidity that a stored position holds, with the incentives of that position, is
refused for one reason only: that the amounts to be paid cannot be computed. None of the sums that
the withdrawal lowers refuses it. The stakes at both boundaries, in every scope that the position
counts in, and the active liquidity where its range contains the current tick, are sums over
positions that have this one among them, so they hold at least what is asked for; and the net stake
of a boundary is a part of its gross stake, up or down.

Crossings, moves and the deposits of others play no part, as they keep the sums what they are.

## Main results

* `Operation.failsOnly_payout`: for which causes the amounts cannot be computed.
* `Store.Balanced.exists_shift`: the boundaries of a stored position can lose what it holds.
* `Store.Balanced.exists_changePosition`: so can all that a withdrawal changes.
* `Ledger.withdraw_refused_only_by_payout`: a withdrawal after any run ends as its payout does.
-/

namespace RangeLedger

/-! ### What is paid -/

/-- The causes for which token amounts cannot be computed: a boundary has no square root of a price,
a product or a quotient has no result, or an amount is no number of units. -/
def MathError.OfAmounts : MathError → Prop
  | tickOutOfBounds _ => True
  | sqrtPriceUnderflow _ => True
  | divisionByZero => True
  | overflow => True
  | negativeAmount _ => True
  | _ => False

namespace Operation

/-- What a withdrawal from a pool pays, or why that cannot be computed. -/
def payout (p : Pool) (w : Withdrawal) : Except MathError (Amount × Amount) := do
  let (exact0, exact1) ← release p w
  let amount0 ← exact0.abs.truncate
  let amount1 ← exact1.abs.truncate
  return (amount0, amount1)

/-- **A payout fails only for want of amounts**, never for want of liquidity. -/
theorem failsOnly_payout (p : Pool) (w : Withdrawal) : FailsOnly (payout p w) MathError.OfAmounts := by
  have hsqrt (t : Tick) : FailsOnly t.sqrtPrice MathError.OfAmounts :=
    t.failsOnly_sqrtPrice trivial (fun _ => trivial) fun _ => trivial
  have htruncate (a : Dec) : FailsOnly a.truncate MathError.OfAmounts :=
    a.failsOnly_truncate trivial fun _ => trivial
  refine .bind ?_ fun amounts => .bind (htruncate _) fun _ => .bind (htruncate _) fun _ => .ok _
  exact .bind (hsqrt _) fun _ => .bind (hsqrt _) fun _ =>
    p.failsOnly_amounts trivial trivial _ _ _ _ _

variable {s s' : Store} {now : Timestamp} {c : Config} {w : Withdrawal} {p : Pool}
  {position : Position}

/-- A sequence ends as the computation that it begins with, if that fails. -/
theorem run_bind_liftMath {α β : Type} {x : Except MathError α} {f : α → Operation β}
    {g : α → Except MathError β}
    (h : ∀ a, x = .ok a → ((f a).run s).1 = (g a).mapError LedgerError.math) :
    (((liftM x : Operation α) >>= f).run s).1 = (x >>= g).mapError LedgerError.math := by
  rw [run_bind]
  cases x with
  | error e => rfl
  | ok a => exact h a rfl

/-- A withdrawal that no check and no change refuses ends as its payout does. -/
theorem withdraw_eq_payout (hp : s.pools.get? w.pool = some p)
    (hrange : p.checkRange c w.lower w.upper = .ok ())
    (hposition : s.positions.get? w.key = some position)
    (hcommitted : position.incentives = w.incentives) (hpositive : 0 < w.liquidity.raw)
    (hheld : w.liquidity ≤ position.liquidity)
    (hchange : (changePosition now position w.liquidity.neg).run s = (.ok (), s')) :
    ((withdraw now c w).run s).1 = (payout p w).mapError LedgerError.math := by
  rw [withdraw, run_bind_of_ok (run_pool_eq_ok_iff.2 ⟨hp, rfl⟩),
    run_bind_of_ok (run_lift_eq_ok_iff.2 ⟨hrange, rfl⟩),
    run_bind_of_ok (run_findPosition_eq_ok_iff.2 ⟨hposition, rfl⟩)]
  have hnot : ¬position.liquidity < w.liquidity := Int.not_lt.2 hheld
  dsimp only
  rw [run_bind_of_ok (run_lift_eq_ok_iff.2 ⟨checkCommitment_eq_ok_iff (u := ()) |>.2 hcommitted, rfl⟩),
    if_neg (by simpa [Dec.isPositive] using hpositive), if_neg hnot]
  refine run_bind_liftMath fun amounts _ => ?_
  rw [run_bind_of_ok hchange]
  exact run_bind_liftMath fun amount0 _ => run_bind_liftMath fun amount1 _ => rfl

end Operation

/-! ### What a withdrawal lowers -/

namespace Store

variable {s : Store} {key : PositionKey} {position : Position} {x : Dec}

section

variable (h : s.Balanced) (hticks : s.TicksMatch)
  (hposition : s.positions.get? key = some position) (hpositive : 0 < x.raw)
  (hheld : x ≤ position.liquidity)

include h hticks hposition hpositive hheld

/-- **The boundaries of a stored position can lose what it holds**, in every scope that it counts
in. -/
theorem Balanced.exists_shift {scope : Scope} (hcounts : scope.Counts position.incentives) :
    (∃ stake, ((s.tickAt key.pool key.lower).stakeFor scope).shift .lower x.neg = .ok stake) ∧
      ∃ stake, ((s.tickAt key.pool key.upper).stakeFor scope).shift .upper x.neg = .ok stake := by
  have hneg : x.neg.raw = -x.raw := Dec.raw_neg (by rw [Dec.limit]; omega)
  have hheld : x.raw ≤ position.liquidity.raw := hheld
  have hroom (t : Tick) := h.positionsHold.touching key.pool t scope
  constructor
  · obtain ⟨hbegins, hends, hbegins', hends'⟩ := hroom key.lower
    have hshare : position.liquidity.raw ≤ s.liquidityOf (BeginsAt key.pool key.lower scope) :=
      le_liquidityOf h.positionsHold hposition ⟨rfl, rfl, hcounts⟩
    have hlimit := ((s.tickAt key.pool key.lower).stakeFor scope).gross.lt_limit
    have hgross := hticks.gross key.pool key.lower scope
    have hnet := hticks.net key.pool key.lower scope
    refine Stake.exists_shift ?_ ?_ ?_ ?_
    all_goals
      simp only [hneg, Edge.signed_lower]
      omega
  · obtain ⟨hbegins, hends, hbegins', hends'⟩ := hroom key.upper
    have hshare : position.liquidity.raw ≤ s.liquidityOf (EndsAt key.pool key.upper scope) :=
      le_liquidityOf h.positionsHold hposition ⟨rfl, rfl, hcounts⟩
    have hlimit := ((s.tickAt key.pool key.upper).stakeFor scope).gross.lt_limit
    have hgross := hticks.gross key.pool key.upper scope
    have hnet := hticks.net key.pool key.upper scope
    refine Stake.exists_shift ?_ ?_ ?_ ?_
    all_goals
      simp only [hneg, Edge.signed_upper]
      omega

/-- **All that a withdrawal changes can be changed**, at any time. -/
theorem Balanced.exists_changePosition {c : Config}
    (haccepts : Accepts c s key position.incentives) (now : Timestamp) :
    ∃ s', (Operation.changePosition now position x.neg).run s = (.ok (), s') := by
  have hneg : x.neg.raw = -x.raw := Dec.raw_neg (by rw [Dec.limit]; omega)
  have hle : x.raw ≤ position.liquidity.raw := hheld
  obtain rfl : position.key = key := Table.key_of_get? hposition
  obtain ⟨p, hp, -, hids⟩ := haccepts
  rw [Pool.checkIncentives_eq_ok_iff] at hids
  have hordered := (h.held _ _ hposition).ordered
  have hne : position.key.lower ≠ position.key.upper := fun heq =>
    absurd hordered (heq ▸ Int.lt_irrefl position.key.lower.val)
  have hshift (scope : Scope) (hcounts : scope.Counts position.incentives) :=
    h.exists_shift hticks hposition hpositive hheld hcounts
  obtain ⟨atLower, hlower⟩ := TickState.exists_change (p := p) now hids fun scope hcounts =>
    (hshift scope hcounts).1
  obtain ⟨atUpper, hupper⟩ := TickState.exists_change (p := p) now hids fun scope hcounts =>
    (hshift scope hcounts).2
  have hactive : p.InRange position.key.lower position.key.upper →
      ∃ left : Dec, 0 ≤ left.raw ∧ left.raw = p.liquidity.raw - x.raw := by
    rintro ⟨hfrom, hto⟩
    have hshare : position.liquidity.raw ≤ s.liquidityOf (Covers position.key.pool p.tick) :=
      le_liquidityOf h.positionsHold hposition ⟨rfl, hfrom, hto⟩
    rw [← h.netUpTo, ← h.active _ p hp] at hshare
    have hlimit := p.liquidity.lt_limit
    exact ⟨⟨p.liquidity.raw - x.raw, by rw [Dec.limit]; omega, by omega⟩, by dsimp only; omega, rfl⟩
  have hlimit : -Dec.limit < x.raw := by rw [Dec.limit]; omega
  obtain ⟨outcome, houtcome⟩ := Pool.exists_shiftActive_neg hlimit hactive
  have hlimit := position.liquidity.lt_limit
  obtain ⟨left, hleft⟩ : ∃ left : Dec, left.raw = position.liquidity.raw - x.raw :=
    ⟨⟨position.liquidity.raw - x.raw, by rw [Dec.limit]; omega, by omega⟩, rfl⟩
  refine ⟨_, Operation.changePosition_eq_ok_iff.2 ⟨p, atLower, atUpper, outcome, left, hp, hlower,
    ?_, houtcome, ?_, rfl⟩⟩
  · rw [tickAt_setTick, if_neg fun hat => hne hat.2]
    exact hupper
  · rw [Dec.add_eq_ok_iff, hneg, hleft, Int.sub_eq_add_neg]

end

end Store

/-! ### Withdrawals after a run -/

namespace Ledger

/-- **A legitimate withdrawal is refused only where its amounts cannot be computed.** After every
run of calls and moves of the price on a fresh ledger, let a position be stored, and let its owner
ask for some of its liquidity with its own incentives. Then, at any time, the change of its two
boundaries, of every committed incentive there, of the active liquidity and of the position
succeeds; the withdrawal ends as the computation of its amounts does, in success and in failure;
and that computation never fails for want of liquidity. -/
theorem withdraw_refused_only_by_payout {l : Ledger} (hl : l.store.IsFresh) {events : List Event}
    (hevents : ∀ e ∈ events, e.IsTrade) {key : PositionKey} {position : Position}
    (hposition : (l.after events).store.positions.get? key = some position) {x : Dec}
    (hpositive : 0 < x.raw) (hheld : x ≤ position.liquidity) (now : Timestamp) :
    ∃ p s', (l.after events).store.pools.get? key.pool = some p ∧
      (Operation.changePosition now position x.neg).run (l.after events).store = (.ok (), s') ∧
      ((Operation.withdraw now (l.after events).config
        ⟨key.pool, key.owner, key.lower, key.upper, x, position.incentives⟩).run
          (l.after events).store).1 =
        (Operation.payout p ⟨key.pool, key.owner, key.lower, key.upper, x,
          position.incentives⟩).mapError LedgerError.math ∧
      FailsOnly (Operation.payout p ⟨key.pool, key.owner, key.lower, key.upper, x,
        position.incentives⟩) MathError.OfAmounts := by
  have hbalanced := Store.balanced_after_trades hl hevents
  have hticks := Store.ticksMatch_after hl events
  have haccepts := Store.accepts_after hl events hposition
  have hkey := (Store.admitted_after hl events key position hposition).incentivized
  obtain ⟨s', hchange⟩ :=
    hbalanced.exists_changePosition hticks hposition hpositive hheld haccepts now
  obtain ⟨p, hp, hrange, -⟩ := haccepts
  rw [config_after]
  refine ⟨p, s', hp, hchange, ?_, Operation.failsOnly_payout p _⟩
  refine Operation.withdraw_eq_payout hp hrange ?_ rfl hpositive hheld hchange
  rw [← hposition, Withdrawal.key, PositionKey.ofIncentives, ← hkey]

/-- A unit of liquidity of the position that a move of the price has brought into range. -/
theorem withdraw_refused_only_by_payout_sample :
    ∃ position s', (Sample.ledger.after Sample.crossing).store.positions.get?
        (Sample.deposit 500 500 10 20).key = some position ∧ Dec.one ≤ position.liquidity ∧
      (Operation.changePosition Timestamp.zero position Dec.one.neg).run
        (Sample.ledger.after Sample.crossing).store = (.ok (), s') := by
  have hstored : ((Sample.ledger.after Sample.crossing).store.positions.get?
      (Sample.deposit 500 500 10 20).key).any (Dec.one ≤ ·.liquidity) = true := by decide +kernel
  obtain ⟨position, hposition, hheld⟩ := (Option.any_eq_true _ _).1 hstored
  have hheld : Dec.one ≤ position.liquidity := of_decide_eq_true hheld
  obtain ⟨p, s', -, hchange, -⟩ := withdraw_refused_only_by_payout Sample.ledger_isFresh
    Sample.isTrade_crossing hposition (by decide) hheld Timestamp.zero
  exact ⟨position, s', hposition, hheld, hchange⟩

end Ledger

end RangeLedger
