import RangeLedger.Store

/-!
# Overlays

An overlay collects writes on top of a storage that stays as it is. Reads see the collected writes
first and the storage beneath where nothing was written. Committing the writes puts them into the
storage; dropping the overlay leaves no trace. Overlays are storages themselves, so they nest.
-/

namespace RangeLedger

/-- What an overlay has decided about a position. -/
inductive PositionEdit where
  | put (position : Position)
  | erase (key : PositionKey)
deriving DecidableEq

namespace PositionEdit

/-- The key of the position that the edit is about. -/
def key : PositionEdit → PositionKey
  | put position => position.key
  | erase key => key

/-- The position that the edit leaves. -/
def result : PositionEdit → Option Position
  | put position => some position
  | erase _ => none

end PositionEdit

/-- The writes that an overlay has collected. -/
structure Writes where
  pools : Table Pool.id
  ticks : Map PoolId (Map Tick TickState)
  positions : Table PositionEdit.key

namespace Writes

/-- No writes. -/
def empty : Writes := ⟨Table.empty, Map.empty, Table.empty⟩

/-- Whether nothing was written. -/
def isEmpty (w : Writes) : Bool := w.pools.isEmpty && w.ticks.isEmpty && w.positions.isEmpty

/-- The ticks written for a pool. -/
def ticksOf (w : Writes) (pool : PoolId) : Map Tick TickState := w.ticks.getD pool Map.empty

variable {σ : Type} [Storage σ]

/-- Puts the written ticks of all pools into a storage. -/
def commitTicks (w : Writes) (s : σ) : σ :=
  w.ticks.toList.foldl
    (fun s entry => entry.2.toList.foldl (fun s t => Storage.setTick s entry.1 t.1 t.2) s) s

/-- Applies an edit of a position to a storage. -/
def applyEdit (s : σ) : PositionEdit → σ
  | .put position => Storage.setPosition s position
  | .erase key => Storage.erasePosition s key

/-- Puts the edits of positions into a storage. -/
def commitPositions (w : Writes) (s : σ) : σ := w.positions.toList.foldl applyEdit s

/-- Puts the writes into a storage, the pools in the given order. -/
def commitWith (pools : List Pool) (w : Writes) (s : σ) : σ :=
  w.commitPositions (w.commitTicks (pools.foldl Storage.setPool s))

/-- Puts the writes into a storage. -/
def commit (w : Writes) (s : σ) : σ := w.commitWith w.pools.toList s

end Writes

/-- A storage with writes on top. -/
structure Overlay (σ : Type) where
  /-- The storage beneath. -/
  base : σ
  writes : Writes

namespace Overlay

variable {σ : Type}

/-- The overlay of a storage in which nothing was written yet. -/
def ofBase (base : σ) : Overlay σ := ⟨base, Writes.empty⟩

instance [Storage σ] : Storage (Overlay σ) where
  pool? o id := (o.writes.pools.get? id).or (Storage.pool? o.base id)
  setPool o p := { o with writes := { o.writes with pools := o.writes.pools.insert p } }
  tick? o pool t := ((o.writes.ticksOf pool).get? t).or (Storage.tick? o.base pool t)
  setTick o pool t state :=
    { o with
      writes := { o.writes with
        ticks := o.writes.ticks.insert pool ((o.writes.ticksOf pool).insert t state) } }
  ticks o pool := (Storage.ticks o.base pool).update (o.writes.ticksOf pool)
  position? o key :=
    match o.writes.positions.get? key with
    | some edit => edit.result
    | none => Storage.position? o.base key
  setPosition o p :=
    { o with writes := { o.writes with positions := o.writes.positions.insert (.put p) } }
  erasePosition o key :=
    { o with writes := { o.writes with positions := o.writes.positions.insert (.erase key) } }

/-- The storage beneath with the writes put into it. -/
def commit [Storage σ] (o : Overlay σ) : σ := o.writes.commit o.base

end Overlay

end RangeLedger
