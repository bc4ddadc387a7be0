import RangeLedger.Json.Configs
import RangeLedger.Json.Pools
import RangeLedger.Json.Positions
import RangeLedger.Json.Ticks
import RangeLedger.Proofs.Dec.Canonical
import RangeLedger.Proofs.Json.Codecs

/-!
# What is stored survives

Pools, ticks, positions, coins, times and configurations are stored as JSON. Their codecs are built
from a few, part by part, and so are the two facts about each of them: it is lawful, as the codecs of
its parts are, and it is legible. Decimals go through their written form, addresses through their
digits, and a span of time is taken apart into seconds and nanoseconds. Only a position holds an
array, that of its incentives, and it stands where just any value is expected.

A configuration that is loaded is checked as well. So the text of a configuration is accepted just if
its bounds enclose a range of ticks that have prices, and no other bounds come from any text.

## Main results

* `Pool.codec_lawful`, `TickState.codec_lawful`, `Position.codec_lawful`, `Config.codec_lawful`: what
  is encoded is decoded.
* `Config.ofText_write_eq_ok_iff`: which written configurations are accepted.
* `Codec.storage_loses_nothing`: every stored value reads back from its text.
-/

namespace RangeLedger

/-! ### Addresses, times and coins -/

/-- An address is read back from its text. -/
theorem Address.codec_lawful : Address.codec.Lawful := by
  intro a
  have hread : (Codec.stringOf? (Json.text a.toText)).bind ofText? = some a := by
    rw [Codec.stringOf?_text, Option.bind_some, ofText?_toText]
  simp only [codec, Json.text]
  exact hread

/-- The text of an address is read as it is written. -/
theorem Address.codec_legible : Address.codec.Legible := fun shape a => .text shape a.toText

/-- A time is read back from its nanoseconds. -/
theorem Timestamp.codec_lawful : Timestamp.codec.Lawful := by
  intro t
  change (Codec.bounded.decode? (Codec.bounded.encode t.nanos)).map Timestamp.mk = some t
  rw [Codec.bounded_lawful t.nanos]
  rfl

/-- The nanoseconds of a time are read as they are written. -/
theorem Timestamp.codec_legible : Timestamp.codec.Legible := fun shape t => .int shape t.nanos.val

/-- A span of time has seconds that fit their word and nanoseconds below a second, and they make up
the span. -/
theorem Duration.exists_parts (d : Duration) : ∃ (secs : Word64) (nanos : Bounded 0 0xFFFF_FFFF),
    secs.val = d.secs ∧ nanos.val = d.subsecNanos ∧ ofParts? secs nanos = some d := by
  have hlo := d.lo_le
  have hhi := d.le_hi
  refine ⟨⟨d.secs, ?_, ?_⟩, ⟨d.subsecNanos, ?_, ?_⟩, rfl, rfl, ?_⟩
  · rw [secs]
    omega
  · rw [secs]
    omega
  · rw [subsecNanos]
    omega
  · rw [subsecNanos]
    omega
  · rw [ofParts?, Bounded.ofInt?_eq_some_iff]
    exact (Int.ediv_mul_add_emod d.val 1_000_000_000).symm

/-- A span of time is read back from its seconds and nanoseconds. -/
theorem Duration.codec_lawful : Duration.codec.Lawful := by
  intro d
  obtain ⟨secs, nanos, hsecs, hnanos, hparts⟩ := d.exists_parts
  have hsecs : Codec.bounded.decode? (.int d.secs) = some secs :=
    Bounded.ofInt?_eq_some_iff.2 hsecs
  have hnanos : Codec.bounded.decode? (.int d.subsecNanos) = some nanos :=
    Bounded.ofInt?_eq_some_iff.2 hnanos
  simp only [codec]
  rw [if_pos, Json.allParts?_of_names]
  · simp only [List.map_cons, List.map_nil, hsecs, hnanos]
    exact hparts
  · rfl
  · decide
  · exact Json.onlyParts_record rfl

/-- The record of a span of time is read as it is written. -/
theorem Duration.codec_legible : Duration.codec.Legible := fun _ _ => .record ⟨.int _ _, .int _ _⟩

/-- A coin is read back from its denomination and amount. -/
theorem Coin.codec_lawful : Coin.codec.Lawful := by
  intro c
  simp only [codec]
  rw [Json.allParts?_of_names]
  · simp only [List.map_cons, List.map_nil, Codec.text, Codec.stringOf?_text,
      Codec.bounded_lawful c.amount]
    rfl
  · rfl
  · decide

/-- The record of a coin is read as it is written. -/
theorem Coin.codec_legible : Coin.codec.Legible := fun _ _ =>
  .record ⟨Codec.text_legible _ _, Codec.bounded_legible _ _⟩

/-! ### Ticks -/

/-- What a tick keeps for an incentive is read back. -/
theorem TickIncentive.codec_lawful : TickIncentive.codec.Lawful := by
  intro r
  simp only [codec]
  rw [Json.allParts?_of_names]
  · simp only [List.map_cons, List.map_nil, Dec.codec_lawful r.stake.gross,
      Dec.codec_lawful r.stake.net, Dec.codec_lawful r.outside]
    rfl
  · rfl
  · decide

/-- Its record is read as it is written. -/
theorem TickIncentive.codec_legible : TickIncentive.codec.Legible := fun _ _ =>
  .record ⟨Dec.codec_legible _ _, Dec.codec_legible _ _, Dec.codec_legible _ _⟩

/-- **The state of a tick is read back**, with the records of its incentives. -/
theorem TickState.codec_lawful : TickState.codec.Lawful := by
  intro t
  have hincentives := Codec.idMap_lawful TickIncentive.codec_lawful t.incentives
  simp only [codec]
  rw [Json.allParts?_of_names]
  · simp only [List.map_cons, List.map_nil, Dec.codec_lawful t.stake.gross,
      Dec.codec_lawful t.stake.net, Duration.codec_lawful t.inactive, hincentives]
    rfl
  · rfl
  · decide

/-- The record of a state of a tick is read as it is written. -/
theorem TickState.codec_legible : TickState.codec.Legible := fun _ _ =>
  .record ⟨Dec.codec_legible _ _, Dec.codec_legible _ _, Duration.codec_legible _ _,
    Codec.idMap_legible TickIncentive.codec_legible _ _⟩

/-! ### Positions -/

/-- The key of a position is read back. -/
theorem PositionKey.codec_lawful : PositionKey.codec.Lawful := by
  intro k
  simp only [codec]
  rw [Json.allParts?_of_names]
  · simp only [List.map_cons, List.map_nil, Codec.bounded_lawful k.pool,
      Address.codec_lawful k.owner, Codec.bounded_lawful k.lower, Codec.bounded_lawful k.upper,
      Codec.flag_lawful k.incentivized]
    rfl
  · rfl
  · decide

/-- The record of a key is read as it is written. -/
theorem PositionKey.codec_legible : PositionKey.codec.Legible := fun _ _ =>
  .record ⟨Codec.bounded_legible _ _, Address.codec_legible _ _, Codec.bounded_legible _ _,
    Codec.bounded_legible _ _, Codec.flag_legible _ _⟩

/-- **A position is read back**, with the set of its incentives. -/
theorem Position.codec_lawful : Position.codec.Lawful := by
  intro p
  have hword : (Codec.bounded : Codec IncentiveId).Lawful := Codec.bounded_lawful
  have hincentives := Codec.set_lawful hword p.incentives
  simp only [codec]
  rw [Json.allParts?_of_names]
  · simp only [List.map_cons, List.map_nil, PositionKey.codec_lawful p.key,
      Dec.codec_lawful p.liquidity, hincentives]
    rfl
  · rfl
  · decide

/-- The record of a position is read as it is written: its incentives are read as any list is. -/
theorem Position.readsBack_codec (p : Position) : Json.ReadsBack codec.shape (codec.encode p) := by
  have hshape : codec.shape.part "incentive_ids" = .any := by
    rw [codec, Json.Shape.part_record]
    rfl
  refine .record ⟨PositionKey.codec_legible _ _, Dec.codec_legible _ _, ?_⟩
  change Json.ReadsBack (codec.shape.part "incentive_ids") _
  rw [hshape]
  exact Codec.readsBack_set Codec.bounded_legible p.incentives

/-! ### Pools -/

/-- An accumulator is read back. -/
theorem PoolIncentive.codec_lawful : PoolIncentive.codec.Lawful := by
  intro r
  simp only [codec]
  rw [Json.allParts?_of_names]
  · simp only [List.map_cons, List.map_nil, Dec.codec_lawful r.secondsPerLiquidity]
    rfl
  · rfl
  · decide

/-- The record of an accumulator is read as it is written. -/
theorem PoolIncentive.codec_legible : PoolIncentive.codec.Legible := fun _ _ =>
  .record (Dec.codec_legible _ _)

/-- **A pool is read back**, with its accumulators. -/
theorem Pool.codec_lawful : Pool.codec.Lawful := by
  intro p
  have hincentives := Codec.idMap_lawful PoolIncentive.codec_lawful p.incentives
  simp only [codec]
  rw [Json.allParts?_of_names]
  · simp only [List.map_cons, List.map_nil, Codec.bounded_lawful p.id,
      Address.codec_lawful p.address, Codec.text, Codec.stringOf?_text,
      Codec.bounded_lawful p.spacing, Codec.bounded_lawful p.tick, Dec.codec_lawful p.sqrtPrice,
      Dec.codec_lawful p.liquidity, Timestamp.codec_lawful p.created, hincentives]
    rfl
  · rfl
  · decide

/-- The record of a pool is read as it is written. -/
theorem Pool.codec_legible : Pool.codec.Legible := fun _ _ =>
  .record ⟨Codec.bounded_legible _ _, Address.codec_legible _ _, Codec.text_legible _ _,
    Codec.text_legible _ _, Codec.bounded_legible _ _, Codec.bounded_legible _ _,
    Dec.codec_legible _ _, Dec.codec_legible _ _, Timestamp.codec_legible _ _,
    Codec.idMap_legible PoolIncentive.codec_legible _ _⟩

/-! ### Configurations -/

/-- A mode is read back from its name. -/
theorem InactiveMode.codec_lawful : InactiveMode.codec.Lawful := by
  intro mode
  have hread : (Codec.stringOf? (Json.text mode.name)).bind ofName? = some mode := by
    rw [Codec.stringOf?_text]
    cases mode <;> rfl
  simp only [codec, Json.text]
  exact hread

/-- The name of a mode is read as it is written. -/
theorem InactiveMode.codec_legible : InactiveMode.codec.Legible := fun shape mode =>
  .text shape mode.name

namespace Config

/-- A configuration is read back from its record. -/
theorem codec_lawful : codec.Lawful := by
  intro c
  simp only [codec]
  rw [Json.parts?_of_names]
  · simp only [List.map_cons, List.map_nil, partOr, Codec.bounded_lawful c.minTick,
      Codec.bounded_lawful c.maxTick, InactiveMode.codec_lawful c.inactiveMode,
      Codec.flag_lawful c.metricsEnabled]
    rfl
  · rfl
  · decide

/-- The record of a configuration is read as it is written. -/
theorem codec_legible : codec.Legible := fun _ _ =>
  .record ⟨Codec.bounded_legible _ _, Codec.bounded_legible _ _, InactiveMode.codec_legible _ _,
    Codec.flag_legible _ _⟩

/-- No configuration is lost on the way to a text and back. -/
theorem roundTrips_codec : codec.RoundTrips := codec_legible.roundTrips codec_lawful

/-- The text of a configuration is accepted just if the bounds enclose a range of ticks that have
prices, and then as the configuration itself. -/
theorem ofText_write_eq_ok_iff {c d : Config} : ofText (codec.write c) = .ok d ↔
    Tick.lowest ≤ c.minTick ∧ c.minTick < c.maxTick ∧ c.maxTick ≤ Tick.highest ∧ d = c := by
  rw [ofText, roundTrips_codec c]
  exact check_eq_ok_iff

end Config

/-! ### Everything that is stored -/

/-- **Storage loses nothing.**

* Pools, ticks, positions and what they are made of, coins, times and configurations read back from
  their texts, whatever values they hold.
* The text of a configuration is accepted, as the configuration itself, exactly if its bounds enclose
  a range of ticks that have prices.
* No text at all is accepted as a configuration with other bounds. -/
theorem Codec.storage_loses_nothing :
    (Pool.codec.RoundTrips ∧ PoolIncentive.codec.RoundTrips ∧
      TickState.codec.RoundTrips ∧ TickIncentive.codec.RoundTrips ∧ Duration.codec.RoundTrips ∧
      PositionKey.codec.RoundTrips ∧ Position.codec.RoundTrips ∧
      Coin.codec.RoundTrips ∧ Timestamp.codec.RoundTrips ∧ Config.codec.RoundTrips) ∧
    (∀ c d, Config.ofText (Config.codec.write c) = .ok d ↔
      Tick.lowest ≤ c.minTick ∧ c.minTick < c.maxTick ∧ c.maxTick ≤ Tick.highest ∧ d = c) ∧
    ∀ s c, Config.ofText s = .ok c →
      Tick.lowest ≤ c.minTick ∧ c.minTick < c.maxTick ∧ c.maxTick ≤ Tick.highest := by
  refine ⟨⟨?_, ?_, ?_, ?_, ?_, ?_, ?_, ?_, ?_, ?_⟩, ?_, ?_⟩
  · exact Pool.codec_legible.roundTrips Pool.codec_lawful
  · exact PoolIncentive.codec_legible.roundTrips PoolIncentive.codec_lawful
  · exact TickState.codec_legible.roundTrips TickState.codec_lawful
  · exact TickIncentive.codec_legible.roundTrips TickIncentive.codec_lawful
  · exact Duration.codec_legible.roundTrips Duration.codec_lawful
  · exact PositionKey.codec_legible.roundTrips PositionKey.codec_lawful
  · exact Position.codec_lawful.roundTrips Position.readsBack_codec
  · exact Coin.codec_legible.roundTrips Coin.codec_lawful
  · exact Timestamp.codec_legible.roundTrips Timestamp.codec_lawful
  · exact Config.roundTrips_codec
  · intro c d
    exact Config.ofText_write_eq_ok_iff
  · intro s c h
    exact Config.ofText_eq_ok h

/-- A coin whose denomination has to be escaped, in the largest amount; a configuration that reaches
below the lowest tick; and the configuration of a text that names one of its bounds. -/
theorem Codec.storage_loses_nothing_sample :
    (∃ coin : Coin, Coin.codec.write coin =
        "\x7b\"denom\":\"\\\"\\u0001é\",\"amount\":340282366920938463463374607431768211455\x7d" ∧
      Coin.codec.read? (Coin.codec.write coin) = some coin) ∧
    (∃ c, Config.codec.read? (Config.codec.write c) = some c ∧ c.minTick < Tick.lowest ∧
      Config.ofText (Config.codec.write c) ≠ .ok c) ∧
    ∃ c, Config.ofText " \x7b\"max_tick\" : -887271\x7d" = .ok c ∧ Tick.lowest ≤ c.minTick ∧
      c.minTick < c.maxTick ∧ c.maxTick ≤ Tick.highest := by
  obtain ⟨⟨-, -, -, -, -, -, -, hcoin, -, hconfig⟩, haccepts, hbounds⟩ := storage_loses_nothing
  have htext : Config.ofText " \x7b\"max_tick\" : -887271\x7d" =
      .ok { Config.standard with maxTick := ⟨-887271, by decide, by decide⟩ } := by
    decide +kernel
  refine ⟨⟨⟨"\"\x01é", Bounded.clamp Amount.zero_le_max (2 ^ 128)⟩, ?_, hcoin _⟩, ?_, _, htext,
    hbounds _ _ htext⟩
  · decide +kernel
  · refine ⟨{ Config.standard with minTick := ⟨-887273, by decide, by decide⟩ }, hconfig _,
      by decide, fun h => ?_⟩
    exact absurd ((haccepts _ _).1 h).1 (by decide)

end RangeLedger
