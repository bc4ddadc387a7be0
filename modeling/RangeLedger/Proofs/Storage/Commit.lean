import RangeLedger.Operation
import RangeLedger.Proofs.Storage.View

/-!
# Committing an overlay

The writes of an overlay are filed under keys, one write a key, so the order in which they are put
into the storage beneath does not show (`Writes.view_commitWith`): the storage then answers what the
overlay answered.

On the store more holds. A script that runs on an overlay of the store and is then committed leaves
exactly the store that it leaves when it runs on the store itself (`Operation.run_ofBase`). Hence
every fact about an operation on the store is a fact about the operation on an overlay that is
committed afterwards.

## Main results

* `Writes.view_commitWith`: what a storage answers after writes were put into it.
* `Overlay.view_commit`: a committed overlay answers as before it was committed.
* `Operation.run_ofBase`: an operation on an overlay of the store, and its committed writes, are
  the operation on the store.
-/

namespace RangeLedger

/-! ### Writing rows one after another -/

section Rows

variable {σ κ ν β : Type} [Ord κ] [Std.LawfulEqOrd κ] {key : ν → κ}

/-- A look-up finds the first row if the key is its own, and else looks among the others. -/
theorem Table.findRow_cons [DecidableEq κ] (k : κ) (row : ν) (rows : List ν) :
    findRow key k (row :: rows) = if key row = k then some row else findRow key k rows := by
  simp only [findRow]
  rw [List.find?_cons]
  by_cases h : key row = k
  · simp [h]
  · have hne : (compare (key row) k == .eq) = false := by simpa using h
    rw [hne, if_neg h]

/-- A look-up finds nothing among rows with other keys. -/
theorem Table.findRow_eq_none_of_forall_ne {k : κ} {rows : List ν} (h : ∀ r ∈ rows, key r ≠ k) :
    findRow key k rows = none := by
  rw [findRow, List.find?_eq_none]
  intro r hr
  simpa using h r hr

/-- If every row changes the answer at its own key, and no two rows have one key, the answer at a
key is changed by the row that has it. -/
theorem answer_foldl [DecidableEq κ] (answer : σ → κ → β) {write : σ → ν → σ} (change : ν → β → β)
    (hwrite : ∀ s row k,
      answer (write s row) k = if key row = k then change row (answer s k) else answer s k)
    {rows : List ν} (hrows : rows.Pairwise fun a b => key a ≠ key b) (s : σ) (k : κ) :
    answer (rows.foldl write s) k =
      match Table.findRow key k rows with
      | some row => change row (answer s k)
      | none => answer s k := by
  induction rows generalizing s with
  | nil => rfl
  | cons row rest ih =>
    obtain ⟨hrow, hrest⟩ := List.pairwise_cons.1 hrows
    rw [List.foldl_cons, ih hrest, Table.findRow_cons, hwrite]
    by_cases h : key row = k
    · subst h
      rw [Table.findRow_eq_none_of_forall_ne fun r hr => (hrow r hr).symm, if_pos rfl, if_pos rfl]
    · rw [if_neg h, if_neg h]

/-- What no row changes stays as it is. -/
theorem frame_foldl {f : σ → β} {write : σ → ν → σ} (hwrite : ∀ s row, f (write s row) = f s)
    (rows : List ν) (s : σ) : f (rows.foldl write s) = f s := by
  induction rows generalizing s with
  | nil => rfl
  | cons row rest ih => rw [List.foldl_cons, ih, hwrite]

/-- No two rows of a table have one key. -/
theorem Table.pairwise_ne (t : Table key) : t.toList.Pairwise fun a b => key a ≠ key b :=
  t.sorted.imp fun {a b} hlt heq => by
    rw [heq] at hlt
    simp at hlt

/-- A look-up in a table finds the same row in the rows in any order. -/
theorem Table.findRow_of_perm {t : Table key} {rows : List ν} (h : rows.Perm t.toList) (k : κ) :
    findRow key k rows = t.get? k := by
  apply Option.ext
  intro row
  constructor
  · intro hrow
    have hmem : row ∈ rows := List.mem_of_find?_eq_some hrow
    have hkey : key row = k := by simpa using List.find?_some hrow
    rw [← hkey]
    exact Table.get?_of_mem (h.mem_iff.1 hmem)
  · intro hrow
    obtain rfl : key row = k := Table.key_of_get? hrow
    have hmem : row ∈ rows := h.mem_iff.2 (Table.mem_of_get? hrow)
    cases hfind : findRow key (key row) rows with
    | none =>
      rw [findRow, List.find?_eq_none] at hfind
      exact absurd (hfind row hmem) (by simp)
    | some found =>
      have hfound : found ∈ t.toList := h.mem_iff.1 (List.mem_of_find?_eq_some hfind)
      have hkey : key found = key row := by simpa using List.find?_some hfind
      rw [← hrow, ← hkey]
      exact (Table.get?_of_mem hfound).symm

end Rows

/-! ### What a commit answers -/

namespace Writes

open LawfulStorage

variable {σ : Type} [Storage σ]

/-- A commit of ticks keeps what is no tick. -/
theorem frame_commitTicks {β : Type} {f : σ → β}
    (h : ∀ s pool t state, f (Storage.setTick s pool t state) = f s) (w : Writes) (s : σ) :
    f (w.commitTicks s) = f s := by
  rw [commitTicks]
  refine frame_foldl (fun s entry => ?_) w.ticks.toList s
  exact frame_foldl (fun s t => h s entry.1 t.1 t.2) entry.2.toList s

variable [LawfulStorage σ]

/-- A written pool is answered under its number. -/
theorem pool?_setPool (s : σ) (p : Pool) (id : PoolId) :
    Storage.pool? (Storage.setPool s p) id = if p.id = id then some p else Storage.pool? s id :=
  congrFun (congrArg View.pool? (view_setPool s p)) id

/-- Writing a pool keeps the ticks. -/
theorem ticks_setPool (s : σ) (p : Pool) : Storage.ticks (Storage.setPool s p) = Storage.ticks s :=
  congrArg View.ticks (view_setPool s p)

/-- Writing a pool keeps the positions. -/
theorem position?_setPool (s : σ) (p : Pool) :
    Storage.position? (Storage.setPool s p) = Storage.position? s :=
  congrArg View.position? (view_setPool s p)

/-- Writing a tick keeps the pools. -/
theorem pool?_setTick (s : σ) (pool : PoolId) (t : Tick) (state : TickState) :
    Storage.pool? (Storage.setTick s pool t state) = Storage.pool? s :=
  congrArg View.pool? (view_setTick s pool t state)

/-- A written tick is answered among those of its pool. -/
theorem ticks_setTick (s : σ) (pool : PoolId) (t : Tick) (state : TickState) (id : PoolId) :
    Storage.ticks (Storage.setTick s pool t state) id =
      if pool = id then (Storage.ticks s id).insert t state else Storage.ticks s id :=
  congrFun (congrArg View.ticks (view_setTick s pool t state)) id

/-- Writing a tick keeps the positions. -/
theorem position?_setTick (s : σ) (pool : PoolId) (t : Tick) (state : TickState) :
    Storage.position? (Storage.setTick s pool t state) = Storage.position? s :=
  congrArg View.position? (view_setTick s pool t state)

/-- An edit of a position keeps the pools. -/
theorem pool?_applyEdit (s : σ) (edit : PositionEdit) :
    Storage.pool? (applyEdit s edit) = Storage.pool? s := by
  cases edit with
  | put p => exact congrArg View.pool? (view_setPosition s p)
  | erase k => exact congrArg View.pool? (view_erasePosition s k)

/-- An edit of a position keeps the ticks. -/
theorem ticks_applyEdit (s : σ) (edit : PositionEdit) :
    Storage.ticks (applyEdit s edit) = Storage.ticks s := by
  cases edit with
  | put p => exact congrArg View.ticks (view_setPosition s p)
  | erase k => exact congrArg View.ticks (view_erasePosition s k)

/-- An edit of a position is answered under its key. -/
theorem position?_applyEdit (s : σ) (edit : PositionEdit) (key : PositionKey) :
    Storage.position? (applyEdit s edit) key =
      if edit.key = key then edit.result else Storage.position? s key := by
  cases edit with
  | put p => exact congrFun (congrArg View.position? (view_setPosition s p)) key
  | erase k => exact congrFun (congrArg View.position? (view_erasePosition s k)) key

/-- The ticks written for one pool come on top of those kept for it. -/
theorem ticks_foldl_setTick (pool : PoolId) (rows : List (Tick × TickState)) (s : σ) (id : PoolId) :
    Storage.ticks (rows.foldl (fun s t => Storage.setTick s pool t.1 t.2) s) id =
      if pool = id then rows.foldl (fun m t => m.insert t.1 t.2) (Storage.ticks s id)
      else Storage.ticks s id := by
  induction rows generalizing s with
  | nil => exact (ite_self _).symm
  | cons row rest ih =>
    rw [List.foldl_cons, ih, ticks_setTick]
    by_cases h : pool = id
    · rw [if_pos h, if_pos h, if_pos h]
      rfl
    · rw [if_neg h, if_neg h, if_neg h]

/-- A commit of ticks puts those written for a pool on top of those kept for it. -/
theorem ticks_commitTicks (w : Writes) (s : σ) (id : PoolId) :
    Storage.ticks (w.commitTicks s) id = (Storage.ticks s id).update (w.ticksOf id) := by
  have hfold := answer_foldl (fun (s : σ) (id : PoolId) => Storage.ticks s id)
    (fun (entry : PoolId × Map Tick TickState) m => m.update entry.2)
    (fun s entry id => ticks_foldl_setTick entry.1 entry.2.toList s id)
    (Table.pairwise_ne w.ticks.entries) s id
  refine hfold.trans ?_
  rw [ticksOf, Map.getD, Map.get?, Table.get?]
  cases Table.findRow Prod.fst id w.ticks.entries.toList with
  | none => rfl
  | some entry => rfl

/-- **What a storage answers after a commit**: what was written, and beneath it what it answered
before. The order in which the pools are written makes no difference. -/
theorem view_commitWith (w : Writes) {pools : List Pool} (hpools : pools.Perm w.pools.toList)
    (s : σ) :
    View.of (w.commitWith pools s) =
      ⟨w.poolOver (View.of s), w.ticksOver (View.of s), w.positionOver (View.of s)⟩ := by
  obtain ⟨written, hwritten⟩ : ∃ written, pools.foldl Storage.setPool s = written := ⟨_, rfl⟩
  unfold commitWith
  rw [hwritten]
  refine View.ext (funext fun id => ?_) (funext fun id => ?_) (funext fun key => ?_)
  · have hdistinct : pools.Pairwise fun p q => p.id ≠ q.id :=
      hpools.symm.pairwise (Table.pairwise_ne w.pools) fun h => h.symm
    calc Storage.pool? (w.commitPositions (w.commitTicks written)) id
        = Storage.pool? written id := by
          unfold commitPositions
          rw [frame_foldl pool?_applyEdit, frame_commitTicks pool?_setTick]
      _ = w.poolOver (View.of s) id := by
          rw [← hwritten,
            answer_foldl Storage.pool? (fun p _ => some p) pool?_setPool hdistinct s id,
            Table.findRow_of_perm hpools]
          unfold poolOver
          cases w.pools.get? id <;> rfl
  · calc Storage.ticks (w.commitPositions (w.commitTicks written)) id
        = (Storage.ticks written id).update (w.ticksOf id) := by
          unfold commitPositions
          rw [frame_foldl ticks_applyEdit, ticks_commitTicks]
      _ = w.ticksOver (View.of s) id := by
          rw [← hwritten, frame_foldl ticks_setPool]
          rfl
  · calc Storage.position? (w.commitPositions (w.commitTicks written)) key
        = w.positionOver (View.of (w.commitTicks written)) key := by
          unfold commitPositions positionOver
          rw [answer_foldl Storage.position? (fun edit _ => edit.result) position?_applyEdit
            (Table.pairwise_ne w.positions) (w.commitTicks written) key]
          unfold Table.get?
          cases Table.findRow PositionEdit.key key w.positions.toList <;> rfl
      _ = w.positionOver (View.of s) key := by
          have hbeneath : (View.of (w.commitTicks written)).position? = (View.of s).position? := by
            change Storage.position? (w.commitTicks written) = Storage.position? s
            rw [frame_commitTicks position?_setTick, ← hwritten, frame_foldl position?_setPool]
          simp only [positionOver]
          rw [hbeneath]

end Writes

/-- **A committed overlay answers as before it was committed.** -/
theorem Overlay.view_commit {σ : Type} [Storage σ] [LawfulStorage σ] (o : Overlay σ) :
    View.of o.commit = View.of o := by
  rw [Overlay.view_eq]
  exact Writes.view_commitWith o.writes (List.Perm.refl _) o.base

/-! ### Overlays of the store -/

namespace Store

/-- The store is determined by its answers and by the pools for which ticks are kept. -/
theorem ext_view {s t : Store} (h : View.of s = View.of t)
    (hkept : ∀ id, (s.ticks.get? id).isSome = (t.ticks.get? id).isSome) : s = t := by
  obtain ⟨hpools, hticks, hpositions⟩ := View.ext_iff.1 h
  have hpool : s.pools = t.pools := Table.ext_get? fun id => congrFun hpools id
  have hposition : s.positions = t.positions := Table.ext_get? fun key => congrFun hpositions key
  have htick : s.ticks = t.ticks := by
    apply Map.ext_get?
    intro id
    have hid : (s.ticks.get? id).getD Map.empty = (t.ticks.get? id).getD Map.empty :=
      congrFun hticks id
    have hsome := hkept id
    cases hs : s.ticks.get? id with
    | none =>
      rw [hs, Option.isSome_none, eq_comm, Option.isSome_eq_false_iff, Option.isNone_iff_eq_none]
        at hsome
      exact hsome.symm
    | some kept =>
      rw [hs, Option.isSome_some, eq_comm, Option.isSome_iff_exists] at hsome
      obtain ⟨kept', ht⟩ := hsome
      rw [hs, ht, Option.getD_some, Option.getD_some] at hid
      rw [ht, hid]
  cases s
  cases t
  cases hpool
  cases htick
  cases hposition
  rfl

/-- Writing a tick keeps ticks for its pool. -/
theorem isSome_setTick (s : Store) (pool : PoolId) (t : Tick) (state : TickState) (id : PoolId) :
    ((Storage.setTick s pool t state).ticks.get? id).isSome =
      (decide (pool = id) || (s.ticks.get? id).isSome) := by
  change ((s.ticks.insert pool _).get? id).isSome = _
  rw [Map.get?_insert]
  by_cases h : pool = id <;> simp [h]

/-- A commit keeps ticks for the pools for which some were written. -/
theorem isSome_commitTicks (w : Writes) (s : Store) (id : PoolId) :
    ((w.commitTicks s).ticks.get? id).isSome =
      ((w.ticks.get? id).any (fun m => !m.isEmpty) || (s.ticks.get? id).isSome) := by
  have hrows (pool : PoolId) (rows : List (Tick × TickState)) (s : Store) (id : PoolId) :
      ((rows.foldl (fun s t => Storage.setTick s pool t.1 t.2) s).ticks.get? id).isSome =
        (!rows.isEmpty && decide (pool = id) || (s.ticks.get? id).isSome) := by
    induction rows generalizing s with
    | nil => simp
    | cons row rest ih =>
      rw [List.foldl_cons, ih, isSome_setTick]
      cases decide (pool = id) <;> simp
  have hfold := answer_foldl (fun (s : Store) id => (s.ticks.get? id).isSome)
    (fun (entry : PoolId × Map Tick TickState) b => !entry.2.isEmpty || b)
    (fun s entry id => (hrows entry.1 entry.2.toList s id).trans (by
      by_cases h : entry.1 = id
      · simp [h, Map.isEmpty, Map.toList, Table.isEmpty]
      · simp [h]))
    (Table.pairwise_ne w.ticks.entries) s id
  refine hfold.trans ?_
  simp only [Map.get?, Table.get?]
  cases Table.findRow Prod.fst id w.ticks.entries.toList <;> rfl

end Store

namespace Overlay

/-- Ticks are written only for pools of which some tick was written. -/
def Tidy (o : Overlay Store) : Prop :=
  ∀ id m, o.writes.ticks.get? id = some m → m.isEmpty = false

/-- A fresh overlay is tidy. -/
theorem tidy_ofBase (s : Store) : (ofBase s).Tidy := fun _ _ h => nomatch h

/-- A map with an entry is not empty. -/
theorem isEmpty_insert (m : Map Tick TickState) (t : Tick) (state : TickState) :
    (m.insert t state).isEmpty = false := by
  obtain ⟨⟨rows, sorted⟩⟩ := m
  change (Table.insertRow Prod.fst (t, state) rows).isEmpty = false
  cases rows with
  | nil => rfl
  | cons row rest =>
    rw [Table.insertRow]
    split <;> rfl

/-- Writing a tick keeps an overlay tidy. -/
theorem tidy_setTick {o : Overlay Store} (h : o.Tidy) (pool : PoolId) (t : Tick)
    (state : TickState) : (Storage.setTick o pool t state).Tidy := by
  intro id m hm
  change (o.writes.ticks.insert pool _).get? id = some m at hm
  rw [Map.get?_insert] at hm
  split at hm
  · obtain rfl := Option.some.inj hm
    exact isEmpty_insert _ _ _
  · exact h id m hm

/-- A commit of a tidy overlay keeps ticks for the pools for which it or the store beneath has some.
-/
theorem isSome_commit {o : Overlay Store} (h : o.Tidy) (id : PoolId) :
    (o.commit.ticks.get? id).isSome =
      ((o.writes.ticks.get? id).isSome || (o.base.ticks.get? id).isSome) := by
  have hpositions : o.commit.ticks = (o.writes.commitTicks
      (o.writes.pools.toList.foldl Storage.setPool o.base)).ticks :=
    frame_foldl (f := Store.ticks) (fun s edit => by cases edit <;> rfl) _ _
  have hpools : (o.writes.pools.toList.foldl Storage.setPool o.base).ticks = o.base.ticks :=
    frame_foldl (f := Store.ticks) (fun s p => (rfl : (Storage.setPool s p).ticks = s.ticks)) _ _
  rw [hpositions, Store.isSome_commitTicks, hpools]
  cases hw : o.writes.ticks.get? id with
  | none => rfl
  | some m => simp [h id m hw]

open LawfulStorage

/-- Writing a pool on top and committing is committing and writing the pool. -/
theorem commit_setPool {o : Overlay Store} (h : o.Tidy) (p : Pool) :
    (Storage.setPool o p).commit = Storage.setPool o.commit p := by
  apply Store.ext_view
  · rw [view_commit, view_setPool, view_setPool, view_commit]
  · intro id
    rw [isSome_commit (o := Storage.setPool o p) h]
    exact (isSome_commit h id).symm

/-- Writing a tick on top and committing is committing and writing the tick. -/
theorem commit_setTick {o : Overlay Store} (h : o.Tidy) (pool : PoolId) (t : Tick)
    (state : TickState) :
    (Storage.setTick o pool t state).commit = Storage.setTick o.commit pool t state := by
  apply Store.ext_view
  · rw [view_commit, view_setTick, view_setTick, view_commit]
  · intro id
    rw [isSome_commit (tidy_setTick h pool t state), Store.isSome_setTick, isSome_commit h]
    change (((o.writes.ticks.insert pool _).get? id).isSome || _) = _
    rw [Map.get?_insert]
    by_cases hid : pool = id <;> simp [hid]
    rfl

/-- Writing a position on top and committing is committing and writing the position. -/
theorem commit_setPosition {o : Overlay Store} (h : o.Tidy) (p : Position) :
    (Storage.setPosition o p).commit = Storage.setPosition o.commit p := by
  apply Store.ext_view
  · rw [view_commit, view_setPosition, view_setPosition, view_commit]
  · intro id
    rw [isSome_commit (o := Storage.setPosition o p) h]
    exact (isSome_commit h id).symm

/-- Removing a position on top and committing is committing and removing it. -/
theorem commit_erasePosition {o : Overlay Store} (h : o.Tidy) (key : PositionKey) :
    (Storage.erasePosition o key).commit = Storage.erasePosition o.commit key := by
  apply Store.ext_view
  · rw [view_commit, view_erasePosition, view_erasePosition, view_commit]
  · intro id
    rw [isSome_commit (o := Storage.erasePosition o key) h]
    exact (isSome_commit h id).symm

/-- A script on an overlay of the store, committed, is the script on the store: the result is the
same and so is the store that is left. -/
theorem run_commit {α : Type} (x : Script α) {o : Overlay Store} (h : o.Tidy) :
    (x.run o).1 = (x.run o.commit).1 ∧ (x.run o).2.commit = (x.run o.commit).2 := by
  have hview := view_commit o
  induction x generalizing o with
  | done => exact ⟨rfl, rfl⟩
  | readPool id _ ih =>
    have hread : Storage.pool? o.commit id = Storage.pool? o id :=
      congrFun (congrArg View.pool? hview) id
    simpa only [Script.run, hread] using ih _ h hview
  | readTick pool t _ ih =>
    have hread : Storage.tick? o.commit pool t = Storage.tick? o pool t := by
      rw [tick?_eq, tick?_eq]
      exact congrArg (Map.get? · t) (congrFun (congrArg View.ticks hview) pool)
    simpa only [Script.run, hread] using ih _ h hview
  | listTicks pool _ ih =>
    have hread : Storage.ticks o.commit pool = Storage.ticks o pool :=
      congrFun (congrArg View.ticks hview) pool
    simpa only [Script.run, hread] using ih _ h hview
  | readPosition key _ ih =>
    have hread : Storage.position? o.commit key = Storage.position? o key :=
      congrFun (congrArg View.position? hview) key
    simpa only [Script.run, hread] using ih _ h hview
  | writePool p _ ih =>
    simpa only [Script.run, commit_setPool h] using
      ih (o := Storage.setPool o p) h (view_commit _)
  | writeTick pool t state _ ih =>
    simpa only [Script.run, commit_setTick h] using
      ih (tidy_setTick h pool t state) (view_commit _)
  | writePosition p _ ih =>
    simpa only [Script.run, commit_setPosition h] using
      ih (o := Storage.setPosition o p) h (view_commit _)
  | erasePosition key _ ih =>
    simpa only [Script.run, commit_erasePosition h] using
      ih (o := Storage.erasePosition o key) h (view_commit _)

end Overlay

/-- **An operation on an overlay of the store, committed, is the operation on the store.** -/
theorem Operation.run_ofBase {α : Type} (x : Operation α) (s : Store) :
    (x.run (Overlay.ofBase s)).1 = (x.run s).1 ∧
      (x.run (Overlay.ofBase s)).2.commit = (x.run s).2 :=
  Overlay.run_commit (ExceptT.run x) (Overlay.tidy_ofBase s)

end RangeLedger
