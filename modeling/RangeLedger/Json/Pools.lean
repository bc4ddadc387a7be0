import RangeLedger.Json.Values
import RangeLedger.Pool

/-!
# JSON forms of pools

A pool is a record, with the accumulators of its incentives in an object by number.
-/

namespace RangeLedger

/-- Accumulators of incentives. -/
def PoolIncentive.codec : Codec PoolIncentive where
  encode r := .record [("seconds_per_liquidity_global", Dec.codec.encode r.secondsPerLiquidity)]
  decode? j :=
    match j.allParts? ["seconds_per_liquidity_global"] with
    | some [value] => do return ⟨← Dec.codec.decode? value⟩
    | _ => none

/-- Pools. -/
def Pool.codec : Codec Pool where
  encode p := .record
    [("id", Codec.bounded.encode p.id),
      ("address", Address.codec.encode p.address),
      ("token0", Json.text p.token0),
      ("token1", Json.text p.token1),
      ("tick_spacing", Codec.bounded.encode p.spacing),
      ("current_tick", Codec.bounded.encode p.tick),
      ("current_sqrt_price", Dec.codec.encode p.sqrtPrice),
      ("liquidity", Dec.codec.encode p.liquidity),
      ("time_of_creation", Timestamp.codec.encode p.created),
      ("incentives", (Codec.idMap PoolIncentive.codec).encode p.incentives)]
  decode? j :=
    match j.allParts?
      ["id", "address", "token0", "token1", "tick_spacing", "current_tick", "current_sqrt_price",
        "liquidity", "time_of_creation", "incentives"] with
    | some [id, address, token0, token1, spacing, tick, sqrtPrice, liquidity, created,
        incentives] => do
      return {
        id := ← Codec.bounded.decode? id
        address := ← Address.codec.decode? address
        token0 := ← Codec.text.decode? token0
        token1 := ← Codec.text.decode? token1
        spacing := ← Codec.bounded.decode? spacing
        tick := ← Codec.bounded.decode? tick
        sqrtPrice := ← Dec.codec.decode? sqrtPrice
        liquidity := ← Dec.codec.decode? liquidity
        created := ← Timestamp.codec.decode? created
        incentives := ← (Codec.idMap PoolIncentive.codec).decode? incentives }
    | _ => none
  shape := .record
    [("id", .any), ("address", Address.codec.shape), ("token0", .any), ("token1", .any),
      ("tick_spacing", .any), ("current_tick", .any), ("current_sqrt_price", .any),
      ("liquidity", .any), ("time_of_creation", .any), ("incentives", .any)]

end RangeLedger
