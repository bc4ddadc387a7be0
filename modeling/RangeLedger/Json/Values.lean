import RangeLedger.Bank
import RangeLedger.Dec.Parser
import RangeLedger.Json.Codec
import RangeLedger.Time

/-!
# JSON forms of decimals, addresses, times and coins

Decimals and addresses are strings, block times are numbers of nanoseconds, a span of time is a
record of seconds and nanoseconds, and a coin is a record of a denomination and an amount.
-/

namespace RangeLedger

/-- Decimals, as strings. -/
def Dec.codec : Codec Dec := .ofText Dec.toText fun s => (Dec.parse s).toOption

/-- Addresses, as strings; they are also read from arrays of twenty bytes. -/
def Address.codec : Codec Address where
  encode a := Json.text a.toText
  decode?
    | .array bytes => do
      let bytes : List (Bounded 0 255) ← (Codec.items .bounded).decode? (.array bytes)
      Address.ofBytes? (bytes.map fun b => b.toNat.toUInt8)
    | j => (Codec.stringOf? j).bind Address.ofText?
  shape := .bytes 20

/-- Block times, as numbers of nanoseconds. -/
def Timestamp.codec : Codec Timestamp where
  encode t := Codec.bounded.encode t.nanos
  decode? j := (Codec.bounded.decode? j).map Timestamp.mk

/-- The names of the parts of a span of time. -/
def Duration.partNames : List String := ["secs", "nanos"]

/-- Spans of time, as records that have no other parts. -/
def Duration.codec : Codec Duration where
  encode d := .record [("secs", .int d.secs), ("nanos", .int d.subsecNanos)]
  decode? j :=
    if j.onlyParts Duration.partNames then
      match j.allParts? Duration.partNames with
      | some [secs, nanos] => do
        Duration.ofParts? (← Codec.bounded.decode? secs) (← Codec.bounded.decode? nanos)
      | _ => none
    else none

/-- Coins. -/
def Coin.codec : Codec Coin where
  encode c := .record [("denom", Json.text c.denom), ("amount", Codec.bounded.encode c.amount)]
  decode? j :=
    match j.allParts? ["denom", "amount"] with
    | some [denom, amount] => do
      return ⟨← Codec.text.decode? denom, ← Codec.bounded.decode? amount⟩
    | _ => none

end RangeLedger
