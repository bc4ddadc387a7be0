import RangeLedger.Json.Values
import RangeLedger.Tick.State

/-!
# JSON forms of ticks

The state of a tick is a record, with the records of its incentives in an object by number.
-/

namespace RangeLedger

/-- What a tick keeps for one incentive. -/
def TickIncentive.codec : Codec TickIncentive where
  encode r := .record
    [("liquidity_gross", Dec.codec.encode r.stake.gross),
      ("liquidity_net", Dec.codec.encode r.stake.net),
      ("seconds_per_liquidity_outside", Dec.codec.encode r.outside)]
  decode? j :=
    match j.allParts? ["liquidity_gross", "liquidity_net", "seconds_per_liquidity_outside"] with
    | some [gross, net, outside] => do
      return ⟨⟨← Dec.codec.decode? gross, ← Dec.codec.decode? net⟩, ← Dec.codec.decode? outside⟩
    | _ => none

/-- States of ticks. -/
def TickState.codec : Codec TickState where
  encode t := .record
    [("liquidity_gross", Dec.codec.encode t.stake.gross),
      ("liquidity_net", Dec.codec.encode t.stake.net),
      ("seconds_inactive", Duration.codec.encode t.inactive),
      ("incentive_records", (Codec.idMap TickIncentive.codec).encode t.incentives)]
  decode? j :=
    match j.allParts?
      ["liquidity_gross", "liquidity_net", "seconds_inactive", "incentive_records"] with
    | some [gross, net, inactive, incentives] => do
      return ⟨⟨← Dec.codec.decode? gross, ← Dec.codec.decode? net⟩,
        ← Duration.codec.decode? inactive,
        ← (Codec.idMap TickIncentive.codec).decode? incentives⟩
    | _ => none

end RangeLedger
