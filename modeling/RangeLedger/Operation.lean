import RangeLedger.Ledger.Error
import RangeLedger.Store.Script

/-!
# Operations

An operation is a script that may be refused. A refused operation ends where it is refused: what
it wrote before that stays written, and it is for the caller to run it on an overlay if nothing
may remain.

## Main results

* `run_bind`: running one operation after another, which stops at the first refusal.
-/

namespace RangeLedger

/-- A script that ends with a result or a refusal. -/
abbrev Operation (α : Type) : Type := ExceptT LedgerError Script α

namespace Operation

variable {α β : Type}

/-- Runs an operation on a storage. -/
def run {σ : Type} [Storage σ] (x : Operation α) (s : σ) : Except LedgerError α × σ :=
  Script.run (ExceptT.run x) s

/-- Ends with the outcome of a computation. -/
def ofExcept (x : Except LedgerError α) : Operation α := ExceptT.mk (.done x)

instance : MonadLift (Except LedgerError) Operation := ⟨ofExcept⟩

instance : MonadLift (Except MathError) Operation :=
  ⟨fun x => ofExcept (x.mapError LedgerError.math)⟩

/-! ### Reads and writes -/

/-- The pool with a given number, if there is one. -/
def findPool (id : PoolId) : Operation (Option Pool) :=
  ExceptT.mk (.readPool id fun p => .done (.ok p))

/-- Keeps a pool. -/
def setPool (p : Pool) : Operation Unit := ExceptT.mk (.writePool p (.done (.ok ())))

/-- The state of a tick, if one is kept. -/
def findTick (pool : PoolId) (t : Tick) : Operation (Option TickState) :=
  ExceptT.mk (.readTick pool t fun state => .done (.ok state))

/-- Keeps the state of a tick. -/
def setTick (pool : PoolId) (t : Tick) (state : TickState) : Operation Unit :=
  ExceptT.mk (.writeTick pool t state (.done (.ok ())))

/-- All ticks kept for a pool. -/
def listTicks (pool : PoolId) : Operation (Map Tick TickState) :=
  ExceptT.mk (.listTicks pool fun ticks => .done (.ok ticks))

/-- The position with a given key, if there is one. -/
def findPosition (key : PositionKey) : Operation (Option Position) :=
  ExceptT.mk (.readPosition key fun p => .done (.ok p))

/-- Keeps a position. -/
def setPosition (p : Position) : Operation Unit :=
  ExceptT.mk (.writePosition p (.done (.ok ())))

/-- Forgets a position. -/
def erasePosition (key : PositionKey) : Operation Unit :=
  ExceptT.mk (.erasePosition key (.done (.ok ())))

/-- The pool with a given number, which there has to be. -/
def pool (id : PoolId) : Operation Pool := do
  match ← findPool id with
  | some p => pure p
  | none => throw (.poolNotFound id)

/-! ### Laws -/

/-- An answer leaves the storage. -/
theorem run_pure {σ : Type} [Storage σ] (a : α) (s : σ) :
    (pure a : Operation α).run s = (.ok a, s) := rfl

/-- A refusal leaves the storage as it is. -/
theorem run_throw {σ : Type} [Storage σ] (e : LedgerError) (s : σ) :
    (throw e : Operation α).run s = (.error e, s) := rfl

/-- A sequence of operations goes on after a result and stops at a refusal. -/
theorem run_bind {σ : Type} [Storage σ] (x : Operation α) (f : α → Operation β) (s : σ) :
    (x >>= f).run s =
      match x.run s with
      | (.ok a, s') => (f a).run s'
      | (.error e, s') => (.error e, s') := by
  change Script.run ((ExceptT.run x) >>= _) s = _
  rw [Script.run_bind]
  unfold run
  rcases h : Script.run (ExceptT.run x) s with ⟨_ | a, s'⟩ <;> rfl

end Operation

end RangeLedger
