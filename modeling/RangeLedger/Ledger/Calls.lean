import RangeLedger.Ledger

/-!
# Calls on a ledger

What can be asked of a ledger: to look at pools, ticks and positions, to deposit and to withdraw,
to cross ticks, and to start incentives. A deposit moves the amounts used from the owner to the
account of the pool, a withdrawal the amounts released from that account to the owner.
-/

namespace RangeLedger

/-- The amounts of a pool's two tokens as coins, without those of no amount. -/
def Pool.coins (p : Pool) (amount0 amount1 : Amount) : List Coin :=
  [⟨p.token0, amount0⟩, ⟨p.token1, amount1⟩].filter fun coin => decide (0 < coin.amount.val)

namespace Ledger

/-! ### Looking -/

/-- The pool with a given number. -/
def pool (id : PoolId) : Call Pool := .read (Operation.pool id)

/-- The state of a tick of a pool. -/
def tickState (id : PoolId) (t : Tick) : Call TickState := .read (Operation.tickState id t)

/-- All ticks kept for a pool. -/
def initializedTicks (id : PoolId) : Call (Map Tick TickState) :=
  .read (Operation.initializedTicks id)

/-- The sum of the net liquidity of all ticks of a pool. -/
def netLiquiditySum (id : PoolId) : Call Dec := .read (Operation.netLiquiditySum id)

/-- The seconds per unit of liquidity that an incentive has collected inside a range. -/
def secondsInside (id : PoolId) (lower upper : Tick) (incentive : IncentiveId) : Call Dec := do
  .read (Operation.secondsInside (← Call.config) id lower upper incentive)

/-- The position with a given key, which there has to be. -/
def position (key : PositionKey) : Call Position := do
  match ← Call.read (Operation.findPosition key) with
  | some p => return p
  | none => throw (.positionNotFound key.pool key.lower key.upper)

/-! ### Ticks and incentives -/

/-- Keeps the state of a tick as it is given. -/
def setTick (id : PoolId) (t : Tick) (state : TickState) : Call Unit :=
  .write (Operation.setTick id t state)

/-- Changes the liquidity of a position that ends at a tick. -/
def changeTick (id : PoolId) (t : Tick) (edge : Edge) (delta : Dec)
    (ids : OrderedSet IncentiveId) : Call Unit := do
  .stage (Operation.changeTick (← Call.now) id t edge delta ids)

/-- Refreshes a tick as the price moves across it, and answers its net liquidity. -/
def crossTick (id : PoolId) (t : Tick) : Call Dec := do
  let net ← Call.stage
    (Operation.crossTick (← Call.now) (← Call.config).inactiveMode id t)
  Call.record "cross_tick" 1.0
  return net

/-- Starts an incentive on a pool. -/
def addIncentive (id : PoolId) (incentive : IncentiveId) : Call Unit :=
  .stage (Operation.addIncentive id incentive)

/-! ### Positions -/

/-- Deposits into a range of a pool, and moves the amounts used from the owner to the pool. -/
def deposit (d : Deposit) : Call Receipt := do
  let now ← Call.now
  let config ← Call.config
  let (receipt, _) ← Call.transact
    (do
      let receipt ← Operation.deposit now config d
      return (receipt, ← Operation.pool d.pool))
    fun (receipt, p) bank =>
      bank.send d.owner p.address (p.coins receipt.amount0 receipt.amount1)
  Call.record "create_position" 1.0
  Call.record "liquidity_added" receipt.liquidity.toFloat
  return receipt

/-- Withdraws liquidity of a position, and moves the amounts released from the pool to the
owner. -/
def withdraw (w : Withdrawal) : Call (Amount × Amount) := do
  let now ← Call.now
  let config ← Call.config
  let (amounts, _) ← Call.transact
    (do
      let amounts ← Operation.withdraw now config w
      return (amounts, ← Operation.pool w.pool))
    fun (amounts, p) bank => bank.send p.address w.owner (p.coins amounts.1 amounts.2)
  Call.record "withdraw_position" 1.0
  Call.record "liquidity_removed" w.liquidity.toFloat
  return amounts

/-! ### The clock -/

/-- Sets the clock, forward or back. -/
def setTime (t : Timestamp) : Call Unit := modify fun l => { l with clock := l.clock.set t }

/-- Lets a span of time pass. -/
def advance (d : Duration) : Call Unit := modify fun l => { l with clock := l.clock.advance d }

end Ledger

end RangeLedger
