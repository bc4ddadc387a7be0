import RangeLedger.Config
import RangeLedger.Json.Codec

/-!
# JSON forms of configurations

A configuration is a record, each part of which may be missing when it is read: then the standard
value is taken. A configuration that is loaded is checked as well.

## Main results

* `ofText_eq_ok`: a configuration that is loaded from a text passes its check.
-/

namespace RangeLedger

/-- The name of a mode. -/
def InactiveMode.name : InactiveMode → String
  | poolAge => "pool_age"
  | sinceLastCross => "since_last_cross"

/-- The mode with a name. -/
def InactiveMode.ofName? : String → Option InactiveMode
  | "pool_age" => some .poolAge
  | "since_last_cross" => some .sinceLastCross
  | _ => none

/-- Modes, as strings; they are also read from objects with a null field of that name. -/
def InactiveMode.codec : Codec InactiveMode where
  encode mode := Json.text mode.name
  decode?
    | .object [(name, .null)] => (Codec.stringOf? (.string name)).bind InactiveMode.ofName?
    | j => (Codec.stringOf? j).bind InactiveMode.ofName?

namespace Config

/-- The value of a part, or a standard value if the part is missing. -/
def partOr {α : Type} (c : Codec α) (standard : α) : Option Json → Option α
  | some j => c.decode? j
  | none => some standard

/-- Configurations. -/
def codec : Codec Config where
  encode c := .record
    [("min_tick", Codec.bounded.encode c.minTick),
      ("max_tick", Codec.bounded.encode c.maxTick),
      ("seconds_inactive_mode", InactiveMode.codec.encode c.inactiveMode),
      ("metrics_enabled", Codec.flag.encode c.metricsEnabled)]
  decode? j :=
    match j.parts? ["min_tick", "max_tick", "seconds_inactive_mode", "metrics_enabled"] with
    | some [minTick, maxTick, mode, metrics] => do
      return {
        minTick := ← partOr .bounded standard.minTick minTick
        maxTick := ← partOr .bounded standard.maxTick maxTick
        inactiveMode := ← partOr InactiveMode.codec standard.inactiveMode mode
        metricsEnabled := ← partOr .flag standard.metricsEnabled metrics }
    | _ => none

/-- The configuration that a text denotes, if it passes its check. -/
def ofText (s : String) : Except ConfigError Config :=
  match codec.read? s with
  | some c => c.check
  | none => .error .malformed

/-- The configuration in a file, given the contents of the file unless it cannot be read. -/
def load (path : String) (contents : Option String) : Except ConfigError Config :=
  match contents with
  | some s => ofText s
  | none => .error (.unreadable path)

/-- A configuration that is loaded from a text has bounds that enclose a range of ticks with
prices. -/
theorem ofText_eq_ok {s : String} {c : Config} (h : ofText s = .ok c) :
    Tick.lowest ≤ c.minTick ∧ c.minTick < c.maxTick ∧ c.maxTick ≤ Tick.highest := by
  unfold ofText at h
  split at h
  · obtain ⟨h₁, h₂, h₃, rfl⟩ := check_eq_ok_iff.1 h
    exact ⟨h₁, h₂, h₃⟩
  · cases h

end Config

end RangeLedger
