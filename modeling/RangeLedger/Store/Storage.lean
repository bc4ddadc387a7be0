import RangeLedger.Pool
import RangeLedger.Position
import RangeLedger.Tick.State

/-!
# Storage

What the ledger asks of a place that keeps pools, ticks and positions: to read and to write each of
them, to remove a position, and to list the ticks of a pool. Both the store itself and the overlays
on top of it are of this kind, so an operation of the ledger is written once for all of them.
-/

namespace RangeLedger

/-- A place that keeps pools, ticks and positions. -/
class Storage (σ : Type) where
  /-- The pool with a given number. -/
  pool? : σ → PoolId → Option Pool
  /-- Keeps a pool under its number. -/
  setPool : σ → Pool → σ
  /-- The state of a tick of a pool; `none` if none was ever kept. -/
  tick? : σ → PoolId → Tick → Option TickState
  /-- Keeps the state of a tick of a pool. -/
  setTick : σ → PoolId → Tick → TickState → σ
  /-- All ticks kept for a pool. -/
  ticks : σ → PoolId → Map Tick TickState
  /-- The position with a given key. -/
  position? : σ → PositionKey → Option Position
  /-- Keeps a position under its key. -/
  setPosition : σ → Position → σ
  /-- Forgets the position with a given key. -/
  erasePosition : σ → PositionKey → σ

end RangeLedger
