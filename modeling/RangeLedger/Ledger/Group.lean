import RangeLedger.Ledger.Calls

/-!
# Groups of ledgers

Ledgers can be hosted side by side, each under the number of the pool that it serves. They keep
stores of their own, and share one bank, one clock and one set of counters. A call is made on the
ledger that is hosted under a number, and is refused if there is none.

## Main results

* `run_eq_of_ledger?`: a call leaves the hosted ledger as it leaves it alone.
-/

namespace RangeLedger

/-- What a hosted ledger keeps for itself. -/
structure Host where
  store : Store
  config : Config
  source : String

/-- Ledgers that share a bank, a clock and counters. -/
structure Group where
  hosts : Map PoolId Host
  bank : Bank
  clock : Clock
  metrics : Metrics

namespace Group

/-- The ledger that is hosted under a number. -/
def ledger? (g : Group) (id : PoolId) : Option Ledger :=
  (g.hosts.get? id).map fun h => ⟨h.store, g.bank, g.clock, h.config, g.metrics, h.source⟩

/-- Hosts a ledger under a number, in place of the one that was. -/
def host (g : Group) (id : PoolId) (h : Host) : Group := { g with hosts := g.hosts.insert id h }

/-- The numbers under which ledgers are hosted, ascending. -/
def poolIds (g : Group) : List PoolId := g.hosts.keys

/-- Takes back a ledger after a call. -/
def keep (g : Group) (id : PoolId) (l : Ledger) : Group where
  hosts := g.hosts.insert id ⟨l.store, l.config, l.source⟩
  bank := l.bank
  clock := l.clock
  metrics := l.metrics

/-- Makes a call on the ledger that is hosted under a number. -/
def run {α : Type} (g : Group) (id : PoolId) (x : Call α) : Except LedgerError α × Group :=
  match g.ledger? id with
  | none => (.error (.poolNotFound id), g)
  | some l =>
    let (outcome, l') := x.run l
    (outcome, g.keep id l')

/-- A call on a hosted ledger has the outcome that it has on the ledger alone, and leaves that
ledger hosted under the number. -/
theorem run_eq_of_ledger? {α : Type} {g : Group} {id : PoolId} {l : Ledger} (x : Call α)
    (h : g.ledger? id = some l) :
    (g.run id x).1 = (x.run l).1 ∧ (g.run id x).2.ledger? id = some (x.run l).2 := by
  unfold run
  rw [h]
  exact ⟨rfl, by simp [ledger?, keep]⟩

end Group

end RangeLedger
