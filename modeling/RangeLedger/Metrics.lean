import RangeLedger.Number.Binary64
import RangeLedger.Table.Map

/-!
# Metrics

Counters grouped by the source of an operation and then by name. Recording adds to a counter; the
report lists every source, with the counters that are not zero. A registry offers one set of
counters to everybody who has none of their own; it is chosen once.

## Main results

* `counter_record`: recording adds to one counter and leaves the others.
-/

namespace RangeLedger

/-- Counters by source and name. -/
structure Metrics where
  sources : Map String (Map String Float)

namespace Metrics

/-- No counters. -/
def empty : Metrics := ⟨Map.empty⟩

/-- The counters of a source. -/
def countersOf (m : Metrics) (source : String) : Map String Float :=
  m.sources.getD source Map.empty

/-- The value of a counter; zero if it was never recorded. -/
def counter (m : Metrics) (source name : String) : Float := (m.countersOf source).getD name 0.0

/-- Adds to a counter. -/
def record (m : Metrics) (source name : String) (value : Float) : Metrics :=
  ⟨m.sources.insert source ((m.countersOf source).insert name (m.counter source name + value))⟩

/-- The written form of a value: eighteen places, without the zeros at the end and without a point
that nothing follows. -/
def valueText (value : Float) : String :=
  let written := ((Binary64.decode value.toBits.toNat).fixed 18).reverse
  String.ofList ((written.dropWhile (· == '0')).dropWhile (· == '.')).reverse

/-- The written counters that are not zero. -/
def counterTexts (counters : Map String Float) : List (String × String) :=
  (counters.toList.filter fun entry => entry.2 != 0.0).map fun entry =>
    (entry.1, valueText entry.2)

/-- Every source with its written counters. -/
def report (m : Metrics) : List (String × List (String × String)) :=
  m.sources.toList.map fun entry => (entry.1, counterTexts entry.2)

/-- Recording adds to one counter and leaves the others. -/
theorem counter_record (m : Metrics) (source name source' name' : String) (value : Float) :
    (m.record source name value).counter source' name' =
      if source = source' ∧ name = name' then m.counter source name + value
      else m.counter source' name' := by
  unfold record counter countersOf
  rw [Map.getD, Map.getD, Map.get?_insert]
  by_cases hs : source = source'
  · subst hs
    rw [if_pos rfl, Option.getD_some, Map.get?_insert]
    by_cases hn : name = name'
    · simp [hn]
    · simp [hn, Map.getD]
  · simp [hs, Map.getD]

end Metrics

/-- The metrics for everybody, if they are chosen. -/
structure Registry where
  chosen : Option Metrics

namespace Registry

/-- The registry before anything is chosen. -/
def fresh : Registry := ⟨none⟩

/-- Chooses the metrics, unless that has happened already. -/
def install (r : Registry) (m : Metrics) : Option Registry :=
  match r.chosen with
  | none => some ⟨some m⟩
  | some _ => none

/-- Hands out the metrics; with that they are chosen. -/
def handOut (r : Registry) : Metrics × Registry :=
  let m := r.chosen.getD Metrics.empty
  (m, ⟨some m⟩)

/-- Metrics that were handed out cannot be replaced. -/
theorem install_handOut (r : Registry) (m : Metrics) : r.handOut.2.install m = none := rfl

end Registry

end RangeLedger
