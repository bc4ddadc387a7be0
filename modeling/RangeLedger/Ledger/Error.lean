import RangeLedger.Bank
import RangeLedger.MathError

/-!
# Causes of refusal by the ledger

Each way in which an operation of the ledger can be refused, with the values that the report
mentions; the wording is in `LedgerError.message` alone.
-/

namespace RangeLedger

/-- Why the ledger refuses an operation. -/
inductive LedgerError where
  | poolNotFound (pool : PoolId)
  /-- A boundary lies outside of the configured ticks. -/
  | invalidTick (tick : Tick) (edge : Edge)
  | invalidRange (lower upper : Tick)
  /-- A boundary is no multiple of the spacing of the pool. -/
  | offSpacing (lower upper : Tick) (spacing : Word64)
  | initialLiquidityZero (amount0 amount1 : Amount)
  | insufficientLiquidityCreated (actual minimum : Amount) (side : Side)
  | zeroLiquidityDelta
  | positionNotFound (pool : PoolId) (lower upper : Tick)
  | insufficientLiquidity (actual available : Dec)
  | incentiveNotFound (pool : PoolId) (incentive : IncentiveId)
  | commitmentMismatch (committed requested : List IncentiveId)
  | math (cause : MathError)
  | bank (cause : BankError)
deriving DecidableEq

namespace LedgerError

/-- A list of numbers between brackets. -/
def idList (ids : List IncentiveId) : String :=
  "[" ++ ", ".intercalate (ids.map fun id => toString id.val) ++ "]"

/-- The text that reports a refusal. -/
def message : LedgerError → String
  | poolNotFound pool => s!"pool {pool.val} not found"
  | invalidTick tick edge =>
    (match edge with
      | .lower => "lower"
      | .upper => "upper") ++
      s!" tick {tick.val} is outside of the allowed range"
  | invalidRange lower upper => s!"lower tick {lower.val} must be below upper tick {upper.val}"
  | offSpacing lower upper spacing =>
    s!"ticks {lower.val}/{upper.val} are not multiples of tick spacing {spacing.val}"
  | initialLiquidityZero amount0 amount1 =>
    s!"first position must provide both assets, got {amount0.val} and {amount1.val}"
  | insufficientLiquidityCreated actual minimum side =>
    s!"created {actual.val} of " ++
      (match side with
        | .token0 => "token0"
        | .token1 => "token1") ++
      s!" which is below the minimum of {minimum.val}"
  | zeroLiquidityDelta => "liquidity delta must be positive"
  | positionNotFound pool lower upper =>
    s!"no position in pool {pool.val} over [{lower.val}, {upper.val})"
  | insufficientLiquidity actual available =>
    s!"requested {actual.toText} liquidity but the position only holds {available.toText}"
  | incentiveNotFound pool incentive =>
    s!"incentive {incentive.val} is not active on pool {pool.val}"
  | commitmentMismatch committed requested =>
    s!"position is committed to incentives {idList committed}, got {idList requested}"
  | math cause => cause.message
  | bank cause => cause.message

end LedgerError

end RangeLedger
