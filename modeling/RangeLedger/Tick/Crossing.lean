import RangeLedger.Ledger.Error
import RangeLedger.Pool.Rules
import RangeLedger.Tick.State

/-!
# Changes of a tick

Two events change what is kept at a tick. A position that ends there is changed: then the gross
and net sums move, in the tick itself and in the records of the incentives of the position, and a
tick that nothing referenced is stamped with the age of the pool. Or the price moves across the
tick: then its inactive time is refreshed, and each incentive with liquidity at the tick takes the
inactive seconds per unit of that liquidity as its outside value and adds it to its accumulator on
the pool.
-/

namespace RangeLedger

/-! ### Positions that end at a tick -/

namespace TickState

/-- Changes the records of the given incentives, in order; each has to have one. -/
def shiftIncentives (t : TickState) (pool : PoolId) (ids : List IncentiveId) (edge : Edge)
    (delta : Dec) : Except LedgerError TickState :=
  ids.foldlM
    (fun t id =>
      match t.shiftIncentive id edge delta with
      | some outcome => outcome.mapError LedgerError.math
      | none => .error (.incentiveNotFound pool id))
    t

/-- Stamps a tick that nothing references with the age of the pool. -/
def stamp (t : TickState) (age : Duration) : TickState :=
  if t.isInactive then { t with inactive := age } else t

/-- Changes the liquidity of a position that ends at the tick with the given edge and is committed
to the given incentives. -/
def change (t : TickState) (p : Pool) (now : Timestamp) (edge : Edge) (delta : Dec)
    (ids : OrderedSet IncentiveId) : Except LedgerError TickState := do
  let t ← ((t.stamp (now.since p.created)).shift edge delta).mapError LedgerError.math
  (t.track p.incentives.keys).shiftIncentives p.id ids.toList edge delta

end TickState

/-! ### Crossings -/

/-- The inactive time that a crossing leaves, given the age of the pool and the time that the
previous crossing left. -/
def InactiveMode.refresh (mode : InactiveMode) (age previous : Duration) : Duration :=
  match mode with
  | .poolAge => age
  | .sinceLastCross => age.monus previous

/-- The record after a crossing: with liquidity, the outside value becomes the inactive seconds
per unit of it; without, it stays. -/
def TickIncentive.cross (r : TickIncentive) (seconds : Dec) : Except MathError TickIncentive :=
  if r.stake.gross.isZero then .ok r else do
    .ok { r with outside := ← seconds.quo r.stake.gross }

/-- The tick after a crossing. -/
def TickState.cross (t : TickState) (mode : InactiveMode) (age : Duration) :
    Except MathError TickState := do
  let inactive := mode.refresh age t.inactive
  let incentives ← t.incentives.toList.foldlM
    (fun m entry => do .ok (m.insert entry.1 (← entry.2.cross inactive.toDec))) t.incentives
  .ok { t with inactive := inactive, incentives := incentives }

/-- Adds the outside value of a record with liquidity to the accumulator of its incentive, if the
pool has one. -/
def Pool.accrueOne (p : Pool) (id : IncentiveId) (r : TickIncentive) : Except MathError Pool :=
  match p.incentives.get? id with
  | some accumulator =>
    if r.stake.gross.isZero then .ok p else do
      let total ← accumulator.secondsPerLiquidity.add r.outside
      .ok { p with incentives := p.incentives.insert id ⟨total⟩ }
  | none => .ok p

/-- Adds the outside values of a crossed tick to the accumulators of the pool. -/
def Pool.accrue (p : Pool) (records : Map IncentiveId TickIncentive) : Except MathError Pool :=
  records.toList.foldlM (fun p entry => p.accrueOne entry.1 entry.2) p

/-! ### Values inside a range -/

/-- The part of an accumulator that belongs to a range, from the outside values at its boundaries:
the whole less what lies below the lower boundary and less what lies above the upper one. On the
side of a boundary where the current tick is not, the outside value stands for the other side. -/
def valueInside (current lower upper : Tick) (whole lowerOutside upperOutside : Dec) :
    Except MathError Dec := do
  let below ← if lower ≤ current then .ok lowerOutside else whole.sub lowerOutside
  let above ← if current < upper then .ok upperOutside else whole.sub upperOutside
  (← whole.sub below).sub above

end RangeLedger
