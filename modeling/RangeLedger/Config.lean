import RangeLedger.Basic

/-!
# Configuration

The configuration bounds the ticks that positions may use, says how a crossing refreshes the
inactive time of a tick, and whether operations are counted.

## Main results

* `check_eq_ok_iff`: which configurations are accepted.
-/

namespace RangeLedger

/-- How a crossing refreshes the inactive time of a tick. -/
inductive InactiveMode where
  /-- It becomes the age of the pool. -/
  | poolAge
  /-- It becomes the age of the pool less the value that the previous crossing left. -/
  | sinceLastCross
deriving DecidableEq

/-- The settings of a ledger. -/
@[ext]
structure Config where
  minTick : Tick
  maxTick : Tick
  inactiveMode : InactiveMode
  metricsEnabled : Bool
deriving DecidableEq

/-- Why a configuration is refused. -/
inductive ConfigError where
  /-- The file cannot be read. -/
  | unreadable (path : String)
  /-- The text is no configuration. -/
  | malformed
  /-- The bounds enclose no range. -/
  | emptyBounds (minTick maxTick : Tick)
  /-- The bounds reach beyond the ticks that have prices. -/
  | boundsTooWide (minTick maxTick : Tick)
deriving DecidableEq

/-- The text that reports a refusal. -/
def ConfigError.message : ConfigError → String
  | unreadable path => s!"failed to read ledger config {path}"
  | malformed => "invalid ledger config"
  | emptyBounds minTick maxTick =>
    s!"min_tick {minTick.val} must be below max_tick {maxTick.val}"
  | boundsTooWide minTick maxTick =>
    s!"tick bounds [{minTick.val}, {maxTick.val}] exceed the supported range " ++
      s!"[{Tick.lowest.val}, {Tick.highest.val}]"

namespace Config

/-- All ticks that have prices, ages of pools, and counting on. -/
def standard : Config := ⟨Tick.lowest, Tick.highest, .poolAge, true⟩

instance : Inhabited Config := ⟨standard⟩

/-- Accepts a configuration whose bounds enclose a range of ticks that have prices. -/
def check (c : Config) : Except ConfigError Config :=
  if c.maxTick ≤ c.minTick then .error (.emptyBounds c.minTick c.maxTick)
  else if c.minTick < Tick.lowest ∨ Tick.highest < c.maxTick then
    .error (.boundsTooWide c.minTick c.maxTick)
  else .ok c

/-- **A configuration is accepted** as it is exactly when its bounds are bounds of ticks, the lower
one below the upper one. -/
theorem check_eq_ok_iff {c d : Config} :
    c.check = .ok d ↔
      Tick.lowest ≤ c.minTick ∧ c.minTick < c.maxTick ∧ c.maxTick ≤ Tick.highest ∧ d = c := by
  unfold check
  simp only [Bounded.le_def, Bounded.lt_def]
  split
  · simp only [reduceCtorEq, false_iff]
    omega
  · split
    · simp only [reduceCtorEq, false_iff]
      omega
    · simp only [Except.ok.injEq, eq_comm (a := c)]
      constructor
      · intro h
        exact ⟨by omega, by omega, by omega, h⟩
      · exact fun h => h.2.2.2

end Config

end RangeLedger
