import RangeLedger.Dec.Arithmetic

/-!
# Prices of ticks

Tick `t` stands for the price `1.0001 ^ t`. The power is computed with seventy-two fraction
digits, by squaring and multiplying with one rounding a step, and is rounded to a decimal once, at
the end: the price to the nearest decimal, its square root down.

Going back, the tick of a price is the highest one whose price does not exceed it, found by
bisection between the lowest and the highest tick.

## Main results

* `price_eq_error_of_outOfBounds`: out of bounds there is no price.
-/

namespace RangeLedger

/-! ### Powers with seventy-two fraction digits -/

/-- One, with seventy-two fraction digits. -/
def wideOne : Nat := Nat.pow 10 72

/-- The ratio `1.0001` of the prices of neighbouring ticks, with seventy-two fraction digits. -/
def wideBase : Nat := 10001 * Nat.pow 10 68

/-- The product of two numbers with seventy-two fraction digits, to the nearest such number. -/
def wideMul (a b : Nat) : Nat := Rounding.halfEven.quotient (a * b) wideOne

/-- Multiplies `power` by `base ^ e`, reading the bits of `e` from the lowest to the highest, for
exponents below `2 ^ fuel`. -/
def widePowerLoop : (fuel base power e : Nat) → Nat
  | 0, _, power, _ => power
  | fuel + 1, base, power, e =>
    if e = 0 then power
    else
      widePowerLoop fuel (wideMul base base) (if e % 2 = 1 then wideMul power base else power)
        (e / 2)

/-- The power `1.0001 ^ e`, with seventy-two fraction digits. -/
def widePower (e : Nat) : Nat := widePowerLoop (e.log2 + 1) wideBase wideOne e

namespace Tick

/-! ### From ticks to prices -/

/-- Whether a tick has a price. -/
def InBounds (t : Tick) : Prop := lowest ≤ t ∧ t ≤ highest

instance (t : Tick) : Decidable t.InBounds := by
  unfold InBounds
  infer_instance

/-- The price of tick `t` times `10 ^ 18`, to the nearest integer. -/
def priceRaw (t : Int) : Nat :=
  if t < 0 then Rounding.halfEven.quotient (Nat.pow 10 90) (widePower t.natAbs)
  else Rounding.halfEven.quotient (widePower t.natAbs) (Nat.pow 10 54)

/-- The price of tick `t` times `10 ^ 36`, rounded down. -/
def squaredSqrtPriceRaw (t : Int) : Nat :=
  if t < 0 then Nat.pow 10 108 / widePower t.natAbs else widePower t.natAbs / Nat.pow 10 36

/-- The square root of the price of tick `t`, times `10 ^ 18`, rounded down. -/
def sqrtPriceRaw (t : Int) : Nat := Nat.sqrt (squaredSqrtPriceRaw t)

/-- The price of a tick, to the nearest decimal; it may round to zero. -/
def price (t : Tick) : Except MathError Dec :=
  if t.InBounds then Dec.ofRaw (priceRaw t.val) else .error (.tickOutOfBounds t)

/-- The square root of the price of a tick, rounded down. It is taken from the power itself, so
that ticks whose price rounds to zero still have one; where it would be zero there is none. -/
def sqrtPrice (t : Tick) : Except MathError Dec :=
  if t.InBounds then do
    let root ← Dec.ofRaw (sqrtPriceRaw t.val)
    if root.isZero then .error (.sqrtPriceUnderflow t) else .ok root
  else .error (.tickOutOfBounds t)

/-! ### From prices to ticks -/

/-- The tick halfway between two, rounded down. -/
def midpoint (low high : Tick) : Tick :=
  ⟨(low.val + high.val) / 2, by have := low.lo_le; have := high.lo_le; omega,
    by have := low.le_hi; have := high.le_hi; omega⟩

/-- Narrows the gap between `low`, whose price does not exceed the given one, and `high`, whose
price does, until the two are neighbours; gaps of up to `2 ^ fuel` close. -/
def bisect (target : Dec) : (fuel : Nat) → (low high : Tick) → Except MathError Tick
  | 0, low, _ => .ok low
  | fuel + 1, low, high =>
    if high.val - low.val ≤ 1 then .ok low
    else do
      let mid := midpoint low high
      if (← mid.price) ≤ target then bisect target fuel mid high else bisect target fuel low mid

/-- The highest tick whose price does not exceed the given price. -/
def ofPrice (target : Dec) : Except MathError Tick :=
  if target.isPositive then do
    if (← highest.price) ≤ target then .ok highest else bisect target 21 lowest highest
  else .error (.nonPositivePrice target)

/-- A tick out of bounds has neither a price nor a root, and is named. -/
theorem price_eq_error_of_outOfBounds {t : Tick} (h : ¬t.InBounds) :
    t.price = .error (.tickOutOfBounds t) ∧ t.sqrtPrice = .error (.tickOutOfBounds t) := by
  simp [price, sqrtPrice, h]

end Tick

end RangeLedger
