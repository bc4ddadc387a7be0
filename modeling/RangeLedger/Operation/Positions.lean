import RangeLedger.Operation.Ticks

/-!
# Operations on positions

A deposit turns the offered amounts into the largest liquidity that they back, and a withdrawal
turns liquidity back into amounts. Both change the position, its two boundary ticks and, where its
range contains the current tick, the active liquidity of the pool. Tokens are moved by the caller.
-/

namespace RangeLedger

/-- A request to deposit. -/
structure Deposit where
  pool : PoolId
  owner : Address
  /-- The amounts offered. -/
  amount0 : Amount
  amount1 : Amount
  /-- The amounts that have to be used at least. -/
  min0 : Amount
  min1 : Amount
  lower : Tick
  upper : Tick
  incentives : OrderedSet IncentiveId

/-- The key of the position that a deposit adds to. -/
def Deposit.key (d : Deposit) : PositionKey :=
  .ofIncentives d.pool d.owner d.lower d.upper d.incentives

@[simp] theorem Deposit.key_pool (d : Deposit) : d.key.pool = d.pool := rfl

@[simp] theorem Deposit.key_lower (d : Deposit) : d.key.lower = d.lower := rfl

@[simp] theorem Deposit.key_upper (d : Deposit) : d.key.upper = d.upper := rfl

/-- What a deposit did. -/
@[ext]
structure Receipt where
  /-- The amounts used. -/
  amount0 : Amount
  amount1 : Amount
  /-- The liquidity created. -/
  liquidity : Dec
deriving DecidableEq

/-- A request to withdraw. -/
structure Withdrawal where
  pool : PoolId
  owner : Address
  lower : Tick
  upper : Tick
  liquidity : Dec
  incentives : OrderedSet IncentiveId

/-- The key of the position that a withdrawal takes from. -/
def Withdrawal.key (w : Withdrawal) : PositionKey :=
  .ofIncentives w.pool w.owner w.lower w.upper w.incentives

@[simp] theorem Withdrawal.key_pool (w : Withdrawal) : w.key.pool = w.pool := rfl

@[simp] theorem Withdrawal.key_lower (w : Withdrawal) : w.key.lower = w.lower := rfl

@[simp] theorem Withdrawal.key_upper (w : Withdrawal) : w.key.upper = w.upper := rfl

/-- Accepts a request for exactly the incentives that a position is committed to. -/
def Position.checkCommitment (p : Position) (ids : OrderedSet IncentiveId) :
    Except LedgerError Unit :=
  if p.isCommittedTo ids then .ok ()
  else .error (.commitmentMismatch p.incentives.toList ids.toList)

namespace Operation

/-- Changes the liquidity of a position: first its lower and upper tick, then the active liquidity,
then the position itself, which goes when nothing is left. -/
def changePosition (now : Timestamp) (position : Position) (delta : Dec) : Operation Unit := do
  let key := position.key
  changeTick now key.pool key.lower .lower delta position.incentives
  changeTick now key.pool key.upper .upper delta position.incentives
  let p ← pool key.pool
  match ← p.shiftActive key.lower key.upper delta with
  | some p' => setPool p'
  | none => pure ()
  let liquidity ← position.liquidity.add delta
  if liquidity.isZero then erasePosition key
  else setPosition { position with liquidity := liquidity }

/-- The pool with its first price, if it has none yet: then the price of the offered amounts is
kept. -/
def pricedPool (p : Pool) (amount0 amount1 : Amount) : Operation Pool :=
  if p.isUnpriced then do
    let opened ← p.openWith amount0 amount1
    setPool opened
    return opened
  else return p

/-- What a deposit into a priced pool comes to. -/
def quote (p : Pool) (d : Deposit) : Except LedgerError Receipt := do
  let sqrtLower ← d.lower.sqrtPrice.mapError LedgerError.math
  let sqrtUpper ← d.upper.sqrtPrice.mapError LedgerError.math
  let liquidity ← (Liquidity.ofAmounts p.sqrtPrice sqrtLower sqrtUpper d.amount0 d.amount1).mapError
    LedgerError.math
  if !liquidity.isPositive then .error .zeroLiquidityDelta
  let (exact0, exact1) ←
    (p.amounts d.lower d.upper sqrtLower sqrtUpper liquidity).mapError LedgerError.math
  let amount0 ← exact0.truncate.mapError LedgerError.math
  let amount1 ← exact1.truncate.mapError LedgerError.math
  if amount0 < d.min0 then .error (.insufficientLiquidityCreated amount0 d.min0 .token0)
  if amount1 < d.min1 then .error (.insufficientLiquidityCreated amount1 d.min1 .token1)
  return ⟨amount0, amount1, liquidity⟩

/-- Deposits into a range of a pool. -/
def deposit (now : Timestamp) (c : Config) (d : Deposit) : Operation Receipt := do
  let found ← pool d.pool
  found.checkRange c d.lower d.upper
  found.checkIncentives d.incentives
  let p ← pricedPool found d.amount0 d.amount1
  let receipt ← quote p d
  let position ←
    match ← findPosition d.key with
    | some existing => do
      existing.checkCommitment d.incentives
      pure existing
    | none => pure (Position.empty d.key d.incentives)
  changePosition now position receipt.liquidity
  return receipt

/-- The amounts that a withdrawal from a pool releases, before they are truncated. -/
def release (p : Pool) (w : Withdrawal) : Except MathError (Dec × Dec) := do
  let sqrtLower ← w.lower.sqrtPrice
  let sqrtUpper ← w.upper.sqrtPrice
  p.amounts w.lower w.upper sqrtLower sqrtUpper w.liquidity.neg

/-- Withdraws liquidity of a position. -/
def withdraw (now : Timestamp) (c : Config) (w : Withdrawal) : Operation (Amount × Amount) := do
  let p ← pool w.pool
  p.checkRange c w.lower w.upper
  match ← findPosition w.key with
  | none => throw (.positionNotFound w.pool w.lower w.upper)
  | some position =>
    position.checkCommitment w.incentives
    if !w.liquidity.isPositive then throw .zeroLiquidityDelta
    if position.liquidity < w.liquidity then
      throw (.insufficientLiquidity w.liquidity position.liquidity)
    let (exact0, exact1) ← release p w
    changePosition now position w.liquidity.neg
    let amount0 ← exact0.abs.truncate
    let amount1 ← exact1.abs.truncate
    return (amount0, amount1)

end Operation

end RangeLedger
