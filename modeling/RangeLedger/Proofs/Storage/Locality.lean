import RangeLedger.Proofs.Storage.Totals

/-!
# What a script touches

What a store keeps falls apart by pools: a pool, its ticks and the positions in it. A script that
reads and writes in one part only (`Script.WorksOn`) finds there what it would find in any store
that agrees on that part, and leaves the others as they are. So two scripts that work on different
parts can change places: neither notices the other.

A store files everything where it belongs, and a script may rely on that. What it reads under the
number of a pool has that number, so it can be written back without leaving the part.

## Main results

* `Script.WorksOn.run_frame`: the other parts of the store stay as they are.
* `Script.WorksOn.run_congr`: the result and the part are those of any store that agrees on it.
* `Script.run_comm`: scripts on different parts have the same results in both orders, and leave the
  same store.
-/

namespace RangeLedger

variable {α β : Type}

/-! ### The part of a pool -/

namespace Store

/-- Two stores keep the same for a pool: itself, its ticks and the positions in it. -/
structure AgreesOn (id : PoolId) (s t : Store) : Prop where
  pool : s.pools.get? id = t.pools.get? id
  ticks : s.ticks.get? id = t.ticks.get? id
  positions : ∀ key : PositionKey, key.pool = id → s.positions.get? key = t.positions.get? key

namespace AgreesOn

variable {id : PoolId} {s t u : Store}

/-- A store agrees with itself. -/
theorem refl (id : PoolId) (s : Store) : s.AgreesOn id s := ⟨rfl, rfl, fun _ _ => rfl⟩

/-- Agreement does not depend on the direction. -/
theorem symm (h : s.AgreesOn id t) : t.AgreesOn id s :=
  ⟨h.pool.symm, h.ticks.symm, fun key hkey => (h.positions key hkey).symm⟩

/-- Stores that agree with one store agree. -/
theorem trans (h : s.AgreesOn id t) (h' : t.AgreesOn id u) : s.AgreesOn id u :=
  ⟨h.pool.trans h'.pool, h.ticks.trans h'.ticks,
    fun key hkey => (h.positions key hkey).trans (h'.positions key hkey)⟩

/-- Stores that agree on a pool have the same ticks for it. -/
theorem ticksOf (h : s.AgreesOn id t) : s.ticksOf id = t.ticksOf id := by
  rw [Store.ticksOf, Store.ticksOf, Map.getD, Map.getD, h.ticks]

end AgreesOn

/-- Stores that agree on every part are the same. -/
theorem ext_agreesOn {s t : Store} (h : ∀ id, s.AgreesOn id t) : s = t := by
  obtain ⟨pools, ticks, positions⟩ := s
  obtain ⟨pools', ticks', positions'⟩ := t
  have hpools : pools = pools' := Table.ext_get? fun id => (h id).pool
  have hticks : ticks = ticks' := Map.ext_get? fun id => (h id).ticks
  have hpositions : positions = positions' :=
    Table.ext_get? fun key => (h key.pool).positions key rfl
  rw [hpools, hticks, hpositions]

/-! A write belongs to one part. It leaves the others, and it keeps an agreement on its own. -/

section

variable {id : PoolId} {s t : Store}

/-- Writing another pool keeps agreement. -/
theorem agreesOn_setPool_of_ne (s : Store) {p : Pool} (h : p.id ≠ id) :
    (Storage.setPool s p).AgreesOn id s :=
  ⟨(get?_setPool s p id).trans (if_neg h), rfl, fun _ _ => rfl⟩

/-- Writing a tick of another pool keeps agreement. -/
theorem agreesOn_setTick_of_ne (s : Store) {pool : PoolId} (h : pool ≠ id) (t : Tick)
    (state : TickState) : (Storage.setTick s pool t state).AgreesOn id s :=
  ⟨rfl, Map.get?_insert_of_ne _ _ h, fun _ _ => rfl⟩

/-- Writing a position in another pool keeps agreement. -/
theorem agreesOn_setPosition_of_ne (s : Store) {p : Position} (h : p.key.pool ≠ id) :
    (Storage.setPosition s p).AgreesOn id s := by
  refine ⟨rfl, rfl, fun key hkey => ?_⟩
  refine (Table.get?_insert s.positions p key).trans (if_neg ?_)
  rintro rfl
  exact h hkey

/-- Removing a position in another pool keeps agreement. -/
theorem agreesOn_erasePosition_of_ne (s : Store) {key : PositionKey} (h : key.pool ≠ id) :
    (Storage.erasePosition s key).AgreesOn id s := by
  refine ⟨rfl, rfl, fun key' hkey => ?_⟩
  refine (Table.get?_erase s.positions key key').trans (if_neg ?_)
  rintro rfl
  exact h hkey

/-- Writing one pool to both stores keeps agreement. -/
theorem AgreesOn.setPool (h : s.AgreesOn id t) (p : Pool) :
    (Storage.setPool s p).AgreesOn id (Storage.setPool t p) := by
  refine ⟨?_, h.ticks, h.positions⟩
  rw [get?_setPool, get?_setPool, h.pool]

/-- Writing one tick to both stores keeps agreement. -/
theorem AgreesOn.setTick (h : s.AgreesOn id t) (tick : Tick) (state : TickState) :
    (Storage.setTick s id tick state).AgreesOn id (Storage.setTick t id tick state) := by
  refine ⟨h.pool, ?_, h.positions⟩
  change (s.ticks.insert id _).get? id = (t.ticks.insert id _).get? id
  rw [Map.get?_insert_self, Map.get?_insert_self, h.ticksOf]

/-- Writing one position to both stores keeps agreement. -/
theorem AgreesOn.setPosition (h : s.AgreesOn id t) (p : Position) :
    (Storage.setPosition s p).AgreesOn id (Storage.setPosition t p) := by
  refine ⟨h.pool, h.ticks, fun key hkey => ?_⟩
  change (s.positions.insert p).get? key = (t.positions.insert p).get? key
  rw [Table.get?_insert, Table.get?_insert, h.positions key hkey]

/-- Removing one position from both stores keeps agreement. -/
theorem AgreesOn.erasePosition (h : s.AgreesOn id t) (key : PositionKey) :
    (Storage.erasePosition s key).AgreesOn id (Storage.erasePosition t key) := by
  refine ⟨h.pool, h.ticks, fun key' hkey => ?_⟩
  change (s.positions.erase key).get? key' = (t.positions.erase key).get? key'
  rw [Table.get?_erase, Table.get?_erase, h.positions key' hkey]

end

end Store

/-! ### Scripts on one part -/

namespace Script

/-- Every read and write of a script belongs to one pool, and its result is of some kind, provided
that what it reads is filed where it belongs. -/
def WorksOn (id : PoolId) (kind : α → Prop) : Script α → Prop
  | done value => kind value
  | readPool i next => i = id ∧ ∀ found, (∀ p, found = some p → p.id = id) →
      (next found).WorksOn id kind
  | writePool p next => p.id = id ∧ next.WorksOn id kind
  | readTick i _ next => i = id ∧ ∀ found, (next found).WorksOn id kind
  | writeTick i _ _ next => i = id ∧ next.WorksOn id kind
  | listTicks i next => i = id ∧ ∀ ticks, (next ticks).WorksOn id kind
  | readPosition key next => key.pool = id ∧ ∀ found, (∀ p, found = some p → p.key = key) →
      (next found).WorksOn id kind
  | writePosition p next => p.key.pool = id ∧ next.WorksOn id kind
  | erasePosition key next => key.pool = id ∧ next.WorksOn id kind

namespace WorksOn

variable {id : PoolId} {kind : α → Prop} {kind' : β → Prop}

/-- A sequence works on a part if both of its scripts do; the second may rely on the kind of result
that the first has. -/
theorem bind {x : Script α} {f : α → Script β} (hx : x.WorksOn id kind)
    (hf : ∀ a, kind a → (f a).WorksOn id kind') : (x >>= f).WorksOn id kind' := by
  change (x.bind f).WorksOn id kind'
  induction x with
  | done value => exact hf value hx
  | readPool _ _ ih | readPosition _ _ ih =>
    exact ⟨hx.1, fun found hfiled => ih found (hx.2 found hfiled)⟩
  | readTick _ _ _ ih | listTicks _ _ ih => exact ⟨hx.1, fun found => ih found (hx.2 found)⟩
  | writePool _ _ ih | writeTick _ _ _ _ ih | writePosition _ _ ih | erasePosition _ _ ih =>
    exact ⟨hx.1, ih hx.2⟩

/-- **The frame**: a script that works on one part leaves the others as they are. -/
theorem run_frame {x : Script α} (h : x.WorksOn id kind) {i : PoolId} (hi : i ≠ id) (s : Store) :
    (x.run s).2.AgreesOn i s := by
  induction x generalizing s with
  | done => exact .refl i s
  | readPool j _ ih =>
    obtain ⟨rfl, hnext⟩ := h
    exact ih _ (hnext _ fun p hp => Table.key_of_get? hp) s
  | readPosition key _ ih => exact ih _ (h.2 _ fun p hp => Table.key_of_get? hp) s
  | readTick _ _ _ ih | listTicks _ _ ih => exact ih _ (h.2 _) s
  | writePool p _ ih =>
    obtain ⟨rfl, hnext⟩ := h
    exact (ih hnext _).trans (s.agreesOn_setPool_of_ne hi.symm)
  | writeTick j t state _ ih =>
    obtain ⟨rfl, hnext⟩ := h
    exact (ih hnext _).trans (s.agreesOn_setTick_of_ne hi.symm t state)
  | writePosition p _ ih =>
    obtain ⟨rfl, hnext⟩ := h
    exact (ih hnext _).trans (s.agreesOn_setPosition_of_ne hi.symm)
  | erasePosition key _ ih =>
    obtain ⟨rfl, hnext⟩ := h
    exact (ih hnext _).trans (s.agreesOn_erasePosition_of_ne hi.symm)

/-- **What a script sees**: on two stores that agree on its part it has the same result, and leaves
them agreed on that part. -/
theorem run_congr {x : Script α} (h : x.WorksOn id kind) {s t : Store} (hst : s.AgreesOn id t) :
    (x.run s).1 = (x.run t).1 ∧ (x.run s).2.AgreesOn id (x.run t).2 := by
  induction x generalizing s t with
  | done => exact ⟨rfl, hst⟩
  | readPool j _ ih =>
    obtain ⟨rfl, hnext⟩ := h
    have hread : Storage.pool? t j = Storage.pool? s j := hst.pool.symm
    simp only [run, hread]
    exact ih _ (hnext _ fun p hp => Table.key_of_get? hp) hst
  | readTick j tick _ ih =>
    obtain ⟨rfl, hnext⟩ := h
    have hread : Storage.tick? t j tick = Storage.tick? s j tick :=
      congrArg (Map.get? · tick) hst.ticksOf.symm
    simp only [run, hread]
    exact ih _ (hnext _) hst
  | listTicks j _ ih =>
    obtain ⟨rfl, hnext⟩ := h
    have hread : Storage.ticks t j = Storage.ticks s j := hst.ticksOf.symm
    simp only [run, hread]
    exact ih _ (hnext _) hst
  | readPosition key _ ih =>
    obtain ⟨hkey, hnext⟩ := h
    have hread : Storage.position? t key = Storage.position? s key :=
      (hst.positions key hkey).symm
    simp only [run, hread]
    exact ih _ (hnext _ fun p hp => Table.key_of_get? hp) hst
  | writePool p _ ih => exact ih h.2 (hst.setPool p)
  | writeTick j tick state _ ih =>
    obtain ⟨rfl, hnext⟩ := h
    exact ih hnext (hst.setTick tick state)
  | writePosition p _ ih => exact ih h.2 (hst.setPosition p)
  | erasePosition key _ ih => exact ih h.2 (hst.erasePosition key)

end WorksOn

/-- **Scripts on different parts can change places**: neither result depends on which of them runs
first, and nor does the store that they leave. -/
theorem run_comm {i j : PoolId} (hij : i ≠ j) {x : Script α} {y : Script β} {kind : α → Prop}
    {kind' : β → Prop} (hx : x.WorksOn i kind) (hy : y.WorksOn j kind') (s : Store) :
    (x.run (y.run s).2).1 = (x.run s).1 ∧ (y.run (x.run s).2).1 = (y.run s).1 ∧
      (x.run (y.run s).2).2 = (y.run (x.run s).2).2 := by
  obtain ⟨hxresult, hxpart⟩ := hx.run_congr (hy.run_frame hij s)
  obtain ⟨hyresult, hypart⟩ := hy.run_congr (hx.run_frame hij.symm s)
  refine ⟨hxresult, hyresult, Store.ext_agreesOn fun id => ?_⟩
  by_cases hi : id = i
  · subst hi
    exact hxpart.trans (hy.run_frame hij _).symm
  by_cases hj : id = j
  · subst hj
    exact (hx.run_frame hi _).trans hypart.symm
  · -- neither script works on this part
    exact (hx.run_frame hi _).trans <| (hy.run_frame hj s).trans <|
      (hx.run_frame hi s).symm.trans (hy.run_frame hj _).symm

end Script

end RangeLedger
