import RangeLedger.Dec.Printer
import RangeLedger.Text.Quoted

/-!
# Causes of arithmetic failure

Each way in which a computation with decimals and ticks can fail is a constructor that carries the
values it complains of; the wording is in `MathError.message` alone.
-/

namespace RangeLedger

/-- Why a computation with decimals or ticks has no result. -/
inductive MathError where
  /-- The tick is not between `Tick.lowest` and `Tick.highest`. -/
  | tickOutOfBounds (tick : Tick)
  /-- The square root of the price of the tick is less than `10 ^ -18`. -/
  | sqrtPriceUnderflow (tick : Tick)
  | divisionByZero
  /-- The result, or a product on the way to it, leaves the range. -/
  | overflow
  | negativeSqrt (value : Dec)
  /-- A liquidity would fall below zero. -/
  | liquidityUnderflow (before delta : Dec)
  /-- A number of token units would be negative. -/
  | negativeAmount (value : Dec)
  | nonPositivePrice (value : Dec)
  /-- The text is no decimal. -/
  | malformedDecimal (input : String)
deriving DecidableEq

namespace MathError

/-- The text that reports a failure. -/
def message : MathError → String
  | tickOutOfBounds tick => s!"tick {tick.val} is outside of the supported tick range"
  | sqrtPriceUnderflow tick =>
    s!"sqrt price of tick {tick.val} is below the smallest representable decimal"
  | divisionByZero => "division by zero"
  | overflow => "decimal overflow"
  | negativeSqrt value => s!"square root of negative value {value.toText}"
  | liquidityUnderflow before delta =>
    s!"liquidity would become negative: {before.toText} + {delta.toText}"
  | negativeAmount value =>
    s!"negative value {value.toText} cannot be converted to a token amount"
  | nonPositivePrice value => s!"price must be positive, got {value.toText}"
  | malformedDecimal input => "malformed decimal " ++ Text.quote input

end MathError

end RangeLedger
