import RangeLedger.Json.Values
import RangeLedger.Position

/-!
# JSON forms of positions

The key of a position and the position itself are records.
-/

namespace RangeLedger

/-- Keys of positions. -/
def PositionKey.codec : Codec PositionKey where
  encode k := .record
    [("pool_id", Codec.bounded.encode k.pool),
      ("owner", Address.codec.encode k.owner),
      ("lower_tick", Codec.bounded.encode k.lower),
      ("upper_tick", Codec.bounded.encode k.upper),
      ("incentivized", Codec.flag.encode k.incentivized)]
  decode? j :=
    match j.allParts? ["pool_id", "owner", "lower_tick", "upper_tick", "incentivized"] with
    | some [pool, owner, lower, upper, incentivized] => do
      return {
        pool := ← Codec.bounded.decode? pool
        owner := ← Address.codec.decode? owner
        lower := ← Codec.bounded.decode? lower
        upper := ← Codec.bounded.decode? upper
        incentivized := ← Codec.flag.decode? incentivized }
    | _ => none
  shape := .record
    [("pool_id", .any), ("owner", Address.codec.shape), ("lower_tick", .any), ("upper_tick", .any),
      ("incentivized", .any)]

/-- Positions. -/
def Position.codec : Codec Position where
  encode p := .record
    [("key", PositionKey.codec.encode p.key),
      ("liquidity", Dec.codec.encode p.liquidity),
      ("incentive_ids", (Codec.set Codec.bounded).encode p.incentives)]
  decode? j :=
    match j.allParts? ["key", "liquidity", "incentive_ids"] with
    | some [key, liquidity, incentives] => do
      return ⟨← PositionKey.codec.decode? key, ← Dec.codec.decode? liquidity,
        ← (Codec.set Codec.bounded).decode? incentives⟩
    | _ => none
  shape := .record
    [("key", PositionKey.codec.shape), ("liquidity", .any), ("incentive_ids", .any)]

end RangeLedger
