import RangeLedger.Liquidity
import RangeLedger.Table.Map
import RangeLedger.Time

/-!
# State of a tick

A tick that bounds some position carries the liquidity of the positions that end there: the gross
sum over all of them, and the net change of the active liquidity when the price crosses the tick
upward, to which positions add at their lower boundary and from which they subtract at their
upper one. For every incentive of the pool it carries the same two numbers over the positions
committed to that incentive, and an outside value of the incentive's accumulator.

## Main results

* `Stake.shift_eq_ok_iff`: what a change does to the two sums, and when it is refused.
-/

namespace RangeLedger

/-- The liquidity that references a boundary. -/
@[ext]
structure Stake where
  /-- The liquidity of all positions that end here. -/
  gross : Dec
  /-- The change of the active liquidity when the price moves up across the tick. -/
  net : Dec
deriving DecidableEq

namespace Stake

/-- No liquidity. -/
def zero : Stake := ⟨Dec.zero, Dec.zero⟩

/-- Whether no liquidity references the boundary. -/
def isZero (s : Stake) : Bool := s.gross.isZero && s.net.isZero

/-- Changes the liquidity of a position that ends here with the given edge. The gross sum may not
fall below zero. -/
def shift (s : Stake) (edge : Edge) (delta : Dec) : Except MathError Stake := do
  let gross ← Liquidity.add s.gross delta
  let net ← match edge with
    | .lower => s.net.add delta
    | .upper => s.net.sub delta
  .ok ⟨gross, net⟩

end Stake

/-- What a tick keeps for one incentive. -/
@[ext]
structure TickIncentive where
  stake : Stake
  /-- The value taken at the last crossing. -/
  outside : Dec
deriving DecidableEq

/-- No liquidity and no outside value. -/
def TickIncentive.zero : TickIncentive := ⟨Stake.zero, Dec.zero⟩

/-- What is kept at a tick. -/
@[ext]
structure TickState where
  stake : Stake
  /-- How long the tick has been inactive. -/
  inactive : Duration
  incentives : Map IncentiveId TickIncentive
deriving DecidableEq

namespace TickState

/-- A tick that was never touched. -/
def zero : TickState := ⟨Stake.zero, Duration.zero, Map.empty⟩

instance : Inhabited TickState := ⟨zero⟩

/-- Whether no liquidity references the tick. -/
def isInactive (t : TickState) : Bool := t.stake.isZero

/-- Changes the liquidity of a position that ends here with the given edge. -/
def shift (t : TickState) (edge : Edge) (delta : Dec) : Except MathError TickState := do
  .ok { t with stake := ← t.stake.shift edge delta }

/-- Starts a zero record for each incentive that has none. -/
def track (t : TickState) (ids : List IncentiveId) : TickState :=
  { t with
    incentives := ids.foldl (fun m id => m.insertNew id TickIncentive.zero) t.incentives }

/-- Changes the liquidity in the record of one incentive; `none` if there is no such record. -/
def shiftIncentive (t : TickState) (id : IncentiveId) (edge : Edge) (delta : Dec) :
    Option (Except MathError TickState) :=
  (t.incentives.get? id).map fun record => do
    let stake ← record.stake.shift edge delta
    .ok { t with incentives := t.incentives.insert id { record with stake := stake } }

end TickState

/-- A change of a boundary adds to the gross sum, which must not fall below zero, and adds to the
net sum at a lower boundary and subtracts from it at an upper one. -/
theorem Stake.shift_eq_ok_iff {s t : Stake} {edge : Edge} {delta : Dec} :
    s.shift edge delta = .ok t ↔
      t.gross.raw = s.gross.raw + delta.raw ∧ 0 ≤ t.gross.raw ∧
        t.net.raw = match edge with
          | .lower => s.net.raw + delta.raw
          | .upper => s.net.raw - delta.raw := by
  unfold Stake.shift Liquidity.add
  cases hg : s.gross.add delta with
  | error e =>
    simp only [bind, Except.bind, reduceCtorEq, false_iff, not_and]
    intro h
    rw [Dec.add_eq_ok_iff.2 h] at hg
    cases hg
  | ok g =>
    rw [Dec.add_eq_ok_iff] at hg
    by_cases hneg : g.raw < 0
    · simp only [bind, Except.bind, Dec.isNegative, hneg, decide_true, if_true, reduceCtorEq,
        false_iff, not_and]
      intro h h'
      omega
    · simp only [bind, Except.bind, Dec.isNegative, hneg, decide_false, Bool.false_eq_true,
        if_false]
      cases edge with
      | lower =>
        cases hn : s.net.add delta with
        | error e =>
          simp only [reduceCtorEq, false_iff, not_and]
          intro _ _ h
          rw [Dec.add_eq_ok_iff.2 h] at hn
          cases hn
        | ok n =>
          rw [Dec.add_eq_ok_iff] at hn
          simp only [Except.ok.injEq, Stake.ext_iff, Dec.ext_iff]
          omega
      | upper =>
        cases hn : s.net.sub delta with
        | error e =>
          simp only [reduceCtorEq, false_iff, not_and]
          intro _ _ h
          rw [Dec.sub_eq_ok_iff.2 h] at hn
          cases hn
        | ok n =>
          rw [Dec.sub_eq_ok_iff] at hn
          simp only [Except.ok.injEq, Stake.ext_iff, Dec.ext_iff]
          omega

end RangeLedger
