import RangeLedger.Dec.Float
import RangeLedger.Metrics
import RangeLedger.Operation.Positions
import RangeLedger.Store.Overlay

/-!
# The ledger

A ledger is a store, a bank, a clock, a configuration and counters. A call on it runs an operation
on an overlay of the store; the tokens that the operation moves are transferred at the bank. Only
when neither is refused are the writes committed, the balances kept and the call counted, so a
refused call leaves the ledger as it was.

## Main results

* `run_transact_of_error`: a refused transaction changes nothing.
* `run_bind`: running one call after another, which stops at the first refusal.
-/

namespace RangeLedger

/-- A ledger. -/
structure Ledger where
  store : Store
  bank : Bank
  clock : Clock
  config : Config
  metrics : Metrics
  /-- The source that operations are counted for. -/
  source : String

/-- Something that is done with a ledger: it ends with an answer or a refusal, and leaves a
ledger either way. -/
abbrev Call (α : Type) : Type := ExceptT LedgerError (StateM Ledger) α

namespace Call

variable {α β : Type}

/-- The outcome of a call and the ledger that it leaves. -/
def run (x : Call α) (l : Ledger) : Except LedgerError α × Ledger := StateT.run (ExceptT.run x) l

/-- The call with a given outcome for each ledger. -/
def ofFunction (f : Ledger → Except LedgerError α × Ledger) : Call α := ExceptT.mk f

/-- Ends with the outcome of a computation. -/
def ofExcept (x : Except LedgerError α) : Call α := ofFunction fun l => (x, l)

instance : MonadLift (Except MathError) Call :=
  ⟨fun x => ofExcept (x.mapError LedgerError.math)⟩

/-- Asks the store; what the operation writes is forgotten. -/
def read (x : Operation α) : Call α := ofFunction fun l => ((x.run l.store).1, l)

/-- Writes to the store without an overlay. -/
def write (x : Operation α) : Call α := ofFunction fun l =>
  let (outcome, store) := x.run l.store
  (outcome, { l with store := store })

/-- Runs an operation on an overlay of the store and makes the transfer that its result asks for.
The writes are committed and the balances kept if neither is refused. -/
def transact (x : Operation α) (transfer : α → Bank → Except BankError Bank) : Call α :=
  ofFunction fun l =>
    match x.run (Overlay.ofBase l.store) with
    | (.error e, _) => (.error e, l)
    | (.ok a, overlay) =>
      match transfer a l.bank with
      | .error e => (.error (.bank e), l)
      | .ok bank => (.ok a, { l with store := overlay.commit, bank := bank })

/-- Runs an operation that moves no tokens on an overlay of the store, and commits what it wrote
unless it is refused. -/
def stage (x : Operation α) : Call α := transact x fun _ bank => .ok bank

/-- Adds to a counter, if the configuration wants operations counted. -/
def record (name : String) (value : Float) : Call Unit :=
  modify fun l =>
    if l.config.metricsEnabled then { l with metrics := l.metrics.record l.source name value }
    else l

/-- The time on the clock. -/
def now : Call Timestamp := do return (← get).clock.now

/-- The configuration. -/
def config : Call Config := do return (← get).config

/-! ### Laws -/

/-- An answer changes nothing. -/
theorem run_pure (a : α) (l : Ledger) : (pure a : Call α).run l = (.ok a, l) := rfl

/-- A refusal changes nothing. -/
theorem run_throw (e : LedgerError) (l : Ledger) : (throw e : Call α).run l = (.error e, l) := rfl

/-- A sequence of calls goes on after an answer and stops at a refusal. -/
theorem run_bind (x : Call α) (f : α → Call β) (l : Ledger) :
    (x >>= f).run l =
      match x.run l with
      | (.ok a, l') => (f a).run l'
      | (.error e, l') => (.error e, l') := by
  unfold run
  rw [ExceptT.run_bind, StateT.run_bind]
  rcases StateT.run (ExceptT.run x) l with ⟨_ | a, l'⟩ <;> rfl

/-- A refused transaction leaves the ledger as it was. -/
theorem run_transact_of_error {x : Operation α} {transfer : α → Bank → Except BankError Bank}
    {l l' : Ledger} {e : LedgerError} (h : (transact x transfer).run l = (.error e, l')) :
    l' = l := by
  simp only [run, transact, ofFunction, ExceptT.run, ExceptT.mk, StateT.run] at h
  split at h
  · exact (congrArg Prod.snd h).symm
  · split at h
    · exact (congrArg Prod.snd h).symm
    · cases h

end Call

end RangeLedger
