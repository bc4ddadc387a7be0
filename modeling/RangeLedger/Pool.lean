import RangeLedger.Address
import RangeLedger.Liquidity
import RangeLedger.Table.Map
import RangeLedger.Time

/-!
# Pools

A pool trades two tokens at a current price, given as a tick and as a square root, and knows the
liquidity that is active at that price: the sum over the positions whose range contains the
current tick. It keeps an accumulator for each incentive that runs on it. Its tokens lie at a
custody address that follows from its number.

A range contains the current tick from its lower boundary up to, but not including, its upper one.
-/

namespace RangeLedger

/-- The accumulator of one incentive on a pool: seconds per unit of liquidity. -/
@[ext]
structure PoolIncentive where
  secondsPerLiquidity : Dec
deriving DecidableEq

/-- An accumulator that has not started. -/
def PoolIncentive.zero : PoolIncentive := ⟨Dec.zero⟩

/-- A pool. -/
@[ext]
structure Pool where
  id : PoolId
  /-- The account that holds the pool's tokens. -/
  address : Address
  token0 : String
  token1 : String
  /-- Boundaries of positions are multiples of this number. -/
  spacing : Word64
  tick : Tick
  sqrtPrice : Dec
  /-- The liquidity of the positions whose range contains the current tick. -/
  liquidity : Dec
  created : Timestamp
  incentives : Map IncentiveId PoolIncentive
deriving DecidableEq

namespace Pool

/-- The eight bytes of a word, the highest first. -/
def bytesOfId (id : PoolId) : List UInt8 :=
  (List.range 8).map fun i => (id.toNat >>> (8 * (7 - i))).toUInt8

/-- The custody address of the pool with the given number. -/
def custody (id : PoolId) : Address :=
  Address.ofDigest ("concentrated-liquidity-pool".toUTF8.toList ++ bytesOfId id)

/-- A pool without a price, a position or an incentive. -/
def fresh (id : PoolId) (token0 token1 : String) (spacing : Word64) (created : Timestamp) : Pool :=
  ⟨id, custody id, token0, token1, spacing, Tick.zero, Dec.zero, Dec.zero, created, Map.empty⟩

/-- Starts an accumulator for each incentive that has none. -/
def withIncentives (p : Pool) (ids : List IncentiveId) : Pool :=
  { p with
    incentives := ids.foldl (fun m id => m.insertNew id PoolIncentive.zero) p.incentives }

/-- Whether the pool has not been given a price yet. -/
def isUnpriced (p : Pool) : Bool := p.sqrtPrice.isZero && p.tick == Tick.zero

/-- Whether a range contains the current tick. -/
def InRange (p : Pool) (lower upper : Tick) : Prop := lower ≤ p.tick ∧ p.tick < upper

instance (p : Pool) (lower upper : Tick) : Decidable (p.InRange lower upper) := by
  unfold InRange
  infer_instance

/-- Changes the active liquidity on behalf of a position over the given range: `none` if the range
does not contain the current tick. -/
def shiftActive (p : Pool) (lower upper : Tick) (delta : Dec) : Except MathError (Option Pool) :=
  if p.InRange lower upper then do
    .ok (some { p with liquidity := ← Liquidity.add p.liquidity delta })
  else .ok none

/-- What a change of liquidity over a range takes of the two tokens at the current price; the
signs are those of the change. -/
def amounts (p : Pool) (lower upper : Tick) (sqrtLower sqrtUpper delta : Dec) :
    Except MathError (Dec × Dec) :=
  if p.InRange lower upper then do
    let amount0 ← Liquidity.amount0 delta p.sqrtPrice sqrtUpper
    let amount1 ← Liquidity.amount1 delta p.sqrtPrice sqrtLower
    .ok (amount0, amount1)
  else if p.tick < lower then do
    .ok (← Liquidity.amount0 delta sqrtLower sqrtUpper, Dec.zero)
  else do
    .ok (Dec.zero, ← Liquidity.amount1 delta sqrtLower sqrtUpper)

end Pool

end RangeLedger
