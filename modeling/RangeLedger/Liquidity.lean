import RangeLedger.Dec.Arithmetic

/-!
# Liquidity

Conversions between token amounts and liquidity over a range of square roots of prices. The two
square roots may be given in either order. Over the range from `p` to `q` with `p ≤ q`, a liquidity
`l` takes `l * (q - p) / (p * q)` of the first token or `l * (q - p)` of the second.
-/

namespace RangeLedger.Liquidity

/-- The lower and the upper one of two square roots of prices. -/
def ordered (a b : Dec) : Dec × Dec := if b < a then (b, a) else (a, b)

/-- Adds a signed change to a liquidity, which may not fall below zero. -/
def add (before delta : Dec) : Except MathError Dec := do
  let after ← Dec.add before delta
  if after.isNegative then .error (.liquidityUnderflow before delta) else .ok after

/-- The liquidity that an amount of the first token backs over a range. -/
def ofAmount0 (amount : Amount) (a b : Dec) : Except MathError Dec := do
  let (lower, upper) := ordered a b
  let product ← Dec.mul lower upper
  let width ← Dec.sub upper lower
  Dec.quo (← Dec.mul (Dec.ofAmount amount) product) width

/-- The liquidity that an amount of the second token backs over a range. -/
def ofAmount1 (amount : Amount) (a b : Dec) : Except MathError Dec := do
  let (lower, upper) := ordered a b
  let width ← Dec.sub upper lower
  Dec.quo (Dec.ofAmount amount) width

/-- What a liquidity takes of the first token over a range; negative for a negative liquidity. -/
def amount0 (liquidity a b : Dec) : Except MathError Dec := do
  let (lower, upper) := ordered a b
  let width ← Dec.sub upper lower
  let product ← Dec.mul lower upper
  Dec.quo (← Dec.mul liquidity width) product

/-- What a liquidity takes of the second token over a range; negative for a negative liquidity. -/
def amount1 (liquidity a b : Dec) : Except MathError Dec := do
  let (lower, upper) := ordered a b
  Dec.mul liquidity (← Dec.sub upper lower)

/-- The largest liquidity over a range that two amounts back at the given square root of the
price: below the range the first token backs it, above it the second, and inside it both do, up to
the price and from the price on. -/
def ofAmounts (sqrtPrice a b : Dec) (amount0 amount1 : Amount) : Except MathError Dec := do
  let (lower, upper) := ordered a b
  if sqrtPrice ≤ lower then ofAmount0 amount0 lower upper
  else if sqrtPrice ≤ upper then
    let from0 ← ofAmount0 amount0 sqrtPrice upper
    let from1 ← ofAmount1 amount1 sqrtPrice lower
    .ok (min from0 from1)
  else ofAmount1 amount1 upper lower

end RangeLedger.Liquidity
