import RangeLedger.Operation
import RangeLedger.Tick.Crossing

/-!
# Operations on ticks

Reading the ticks of a pool, changing a boundary, crossing a tick, reading the value of an
incentive inside a range, and starting an incentive on a pool.
-/

namespace RangeLedger.Operation

/-- The state of a tick of a pool, which there has to be; a tick that was never touched reads as
zero. -/
def tickState (id : PoolId) (t : Tick) : Operation TickState := do
  let _ ← pool id
  return (← findTick id t).getD TickState.zero

/-- All ticks kept for a pool, which there has to be. -/
def initializedTicks (id : PoolId) : Operation (Map Tick TickState) := do
  let _ ← pool id
  listTicks id

/-- The sum of the net liquidity of a list of ticks, added up in order. -/
def netSum (ticks : List TickState) : Except MathError Dec :=
  ticks.foldlM (fun sum t => sum.add t.stake.net) Dec.zero

/-- The sum of the net liquidity of all ticks of a pool, in ascending order. -/
def netLiquiditySum (id : PoolId) : Operation Dec := do
  let ticks ← initializedTicks id
  netSum ticks.values

/-- Changes the liquidity of a position that ends at a tick with the given edge and is committed
to the given incentives. -/
def changeTick (now : Timestamp) (id : PoolId) (t : Tick) (edge : Edge) (delta : Dec)
    (ids : OrderedSet IncentiveId) : Operation Unit := do
  let p ← pool id
  let before := (← findTick id t).getD TickState.zero
  setTick id t (← before.change p now edge delta ids)

/-- Refreshes a tick as the price moves across it, and answers its net liquidity. The tick is
written before the accumulators are added to. -/
def crossTick (now : Timestamp) (mode : InactiveMode) (id : PoolId) (t : Tick) :
    Operation Dec := do
  let p ← pool id
  let before ← tickState id t
  let after ← before.cross mode (now.since p.created)
  setTick id t after
  setPool (← p.accrue after.incentives)
  return after.stake.net

/-- The seconds per unit of liquidity that an incentive has collected inside a range. -/
def secondsInside (c : Config) (id : PoolId) (lower upper : Tick) (incentive : IncentiveId) :
    Operation Dec := do
  let p ← pool id
  p.checkRange c lower upper
  match p.incentives.get? incentive with
  | none => throw (.incentiveNotFound id incentive)
  | some accumulator =>
    let outside (t : TickState) : Dec :=
      ((t.incentives.get? incentive).map TickIncentive.outside).getD Dec.zero
    let atLower ← tickState id lower
    let atUpper ← tickState id upper
    valueInside p.tick lower upper accumulator.secondsPerLiquidity (outside atLower)
      (outside atUpper)

/-- Starts an incentive on a pool, unless it runs already. -/
def addIncentive (id : PoolId) (incentive : IncentiveId) : Operation Unit := do
  let p ← pool id
  if p.incentives.contains incentive then return ()
  else setPool (p.withIncentives [incentive])

end RangeLedger.Operation
