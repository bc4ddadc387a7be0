import RangeLedger.Proofs.Operation.Outcome
import RangeLedger.Proofs.Storage.View
import Mathlib

/-!
# Totals over tables

A quantity of each row adds up to a total over a table. Filing a row changes the total by the
quantity of the new row less that of the row it replaces, and removing a row takes its quantity
away; the order of the rows plays no part in this.

Two totals matter. The liquidity of the positions of some kind is a total over the positions of a
store (`Store.liquidityOf`), and the net liquidity up to some tick is a total over the ticks of a
pool (`Store.netUpTo`).

## Main results

* `Table.sum_insert`, `Table.sum_erase`: a total after a row was filed or removed.
* `Store.total_keepPosition`: a total over the positions after one of them was changed.
* `Store.sum_setTick`: a total over the ticks of a pool after some tick was changed.
-/

namespace RangeLedger

namespace Table

variable {κ ν : Type} [Ord κ] {key : ν → κ}

/-- The total of a quantity over the rows. -/
def sum (t : Table key) (f : ν → Int) : Int := (t.toList.map f).sum

/-- The quantity of a row that may be missing. -/
def share (f : ν → Int) : Option ν → Int
  | some row => f row
  | none => 0

/-- A row that is missing has no share. -/
@[simp] theorem share_none (f : ν → Int) : share f none = 0 := rfl

/-- The share of a row that is there. -/
@[simp] theorem share_some (f : ν → Int) (row : ν) : share f (some row) = f row := rfl

/-- A sum depends on what is summed of each row. -/
theorem sum_congr {t : Table key} {f g : ν → Int} (h : ∀ row ∈ t.toList, f row = g row) :
    t.sum f = t.sum g :=
  congrArg List.sum (List.map_congr_left h)

/-- Rows that count nothing sum to nothing. -/
theorem sum_eq_zero {t : Table key} {f : ν → Int} (h : ∀ row ∈ t.toList, f row = 0) :
    t.sum f = 0 :=
  List.sum_eq_zero (List.forall_mem_map.2 h)

/-- Rows that count nothing negative have no negative sum. -/
theorem sum_nonneg {t : Table key} {f : ν → Int} (h : ∀ row ∈ t.toList, 0 ≤ f row) :
    0 ≤ t.sum f :=
  List.sum_nonneg (List.forall_mem_map.2 h)

/-- Rows that count less have no larger sum. -/
theorem sum_le_sum {t : Table key} {f g : ν → Int} (h : ∀ row ∈ t.toList, f row ≤ g row) :
    t.sum f ≤ t.sum g :=
  List.sum_le_sum h

/-- A row has no more than its table. -/
theorem le_sum_of_mem {t : Table key} {f : ν → Int} (h : ∀ row ∈ t.toList, 0 ≤ f row) {row : ν}
    (hrow : row ∈ t.toList) : f row ≤ t.sum f :=
  List.single_le_sum (List.forall_mem_map.2 h) _ (List.mem_map_of_mem hrow)

/-- What is summed may be split. -/
theorem sum_add (t : Table key) (f g : ν → Int) :
    (t.sum fun row => f row + g row) = t.sum f + t.sum g :=
  List.sum_map_add

variable [Std.TransOrd κ] [Std.LawfulEqOrd κ]

/-- A filed row adds its share and replaces that of the row with its key. -/
theorem sum_insertRow (f : ν → Int) (row : ν) {rows : List ν}
    (h : rows.Pairwise fun a b => compare (key a) (key b) = .lt) :
    ((insertRow key row rows).map f).sum =
      (rows.map f).sum + f row - share f (findRow key (key row) rows) := by
  induction rows with
  | nil => simp [insertRow, findRow]
  | cons first rest ih =>
    obtain ⟨hfirst, hrest⟩ := List.pairwise_cons.1 h
    rw [insertRow]
    split
    next hlt =>
      -- the row belongs in front, so no row further on has its key
      have hnone : findRow key (key row) (first :: rest) = none := by
        refine List.find?_eq_none.2 fun r hr heq => ?_
        have hgt : compare (key row) (key r) = .lt := by
          rcases List.mem_cons.1 hr with rfl | hr
          · exact hlt
          · exact Std.TransCmp.lt_trans hlt (hfirst r hr)
        rw [beq_iff_eq, Std.LawfulEqCmp.compare_eq_iff_eq] at heq
        rw [heq] at hgt
        simp at hgt
      rw [hnone, share_none]
      simp only [List.map_cons, List.sum_cons]
      omega
    next heq =>
      have hfound : findRow key (key row) (first :: rest) = some first := by
        rw [Std.LawfulEqCmp.compare_eq_iff_eq] at heq
        simp [findRow, heq]
      rw [hfound, share_some]
      simp only [List.map_cons, List.sum_cons]
      omega
    next hgt =>
      have hskip : findRow key (key row) (first :: rest) = findRow key (key row) rest := by
        have hne : compare (key first) (key row) ≠ .eq := by
          rw [Std.OrientedCmp.gt_iff_lt.1 hgt]
          simp
        simp [findRow, hne]
      rw [hskip]
      have ih := ih hrest
      simp only [List.map_cons, List.sum_cons]
      omega

/-- A row that is filed counts in place of the one that it replaces. -/
theorem sum_insert (t : Table key) (f : ν → Int) (row : ν) :
    (t.insert row).sum f = t.sum f + f row - share f (t.get? (key row)) :=
  sum_insertRow f row t.sorted

/-- A dropped row takes its share with it. -/
theorem sum_dropRow (f : ν → Int) (k : κ) {rows : List ν}
    (h : rows.Pairwise fun a b => compare (key a) (key b) = .lt) :
    ((dropRow key k rows).map f).sum = (rows.map f).sum - share f (findRow key k rows) := by
  induction rows with
  | nil => simp [dropRow, findRow]
  | cons first rest ih =>
    obtain ⟨hfirst, hrest⟩ := List.pairwise_cons.1 h
    by_cases hk : compare (key first) k = .eq
    · -- the keys behind are higher, so nothing else is dropped
      have hkeep : dropRow key k rest = rest := by
        refine List.filter_eq_self.2 fun r hr => ?_
        rw [Std.LawfulEqCmp.compare_eq_iff_eq] at hk
        have hlt := hfirst r hr
        rw [hk, ← Std.OrientedCmp.gt_iff_lt] at hlt
        simp [hlt]
      have hdrop : dropRow key k (first :: rest) = dropRow key k rest := by simp [dropRow, hk]
      have hfound : findRow key k (first :: rest) = some first := by simp [findRow, hk]
      rw [hdrop, hkeep, hfound, share_some]
      simp only [List.map_cons, List.sum_cons]
      omega
    · have hdrop : dropRow key k (first :: rest) = first :: dropRow key k rest := by
        simp [dropRow, hk]
      have hskip : findRow key k (first :: rest) = findRow key k rest := by simp [findRow, hk]
      have ih := ih hrest
      rw [hdrop, hskip]
      simp only [List.map_cons, List.sum_cons]
      omega

/-- A row that is removed counts no more. -/
theorem sum_erase (t : Table key) (f : ν → Int) (k : κ) :
    (t.erase k).sum f = t.sum f - share f (t.get? k) :=
  sum_dropRow f k t.sorted

/-- The total over the row of one key. -/
theorem sum_ite_key [DecidableEq κ] (t : Table key) (f : ν → Int) (k : κ) :
    (t.sum fun row => if key row = k then f row else 0) = share f (t.get? k) := by
  have herase := t.sum_erase (fun row => if key row = k then f row else 0) k
  have hrest : ((t.erase k).sum fun row => if key row = k then f row else 0) = 0 := by
    refine sum_eq_zero fun row hrow => if_neg fun heq => ?_
    have hnone := (get?_erase t k (key row)).trans (if_pos heq.symm)
    rw [get?_of_mem hrow] at hnone
    cases hnone
  rw [hrest] at herase
  cases hfound : t.get? k with
  | none =>
    rw [hfound, share_none] at herase
    rw [share_none]
    omega
  | some row =>
    rw [hfound, share_some, if_pos (key_of_get? hfound)] at herase
    rw [share_some]
    omega

end Table

namespace Store

variable {s : Store}

/-! ### Totals over positions -/

/-- The total of a quantity over the stored positions. -/
def total (s : Store) (f : Position → Int) : Int := s.positions.sum f

/-- A quantity that comes with liquidity: a position without liquidity has none of it. -/
def Backed (f : Position → Int) : Prop := ∀ p : Position, p.liquidity.raw = 0 → f p = 0

/-- The liquidity of the stored positions whose key and incentives are of some kind. -/
def liquidityOf (s : Store) (kind : PositionKey → OrderedSet IncentiveId → Prop)
    [∀ key ids, Decidable (kind key ids)] : Int :=
  s.total fun p => if kind p.key p.incentives then p.liquidity.raw else 0

/-- A total over positions depends on the positions alone. -/
theorem total_congr {s' : Store} (h : s'.positions = s.positions) (f : Position → Int) :
    s'.total f = s.total f := by
  simp only [total]
  rw [h]

/-- So does the liquidity of a kind. -/
theorem liquidityOf_congr {s' : Store} (h : s'.positions = s.positions)
    (kind : PositionKey → OrderedSet IncentiveId → Prop) [∀ key ids, Decidable (kind key ids)] :
    s'.liquidityOf kind = s.liquidityOf kind :=
  total_congr h _

/-- Two kinds with the same positions have the same liquidity. -/
theorem liquidityOf_iff {kind kind' : PositionKey → OrderedSet IncentiveId → Prop}
    [∀ key ids, Decidable (kind key ids)] [∀ key ids, Decidable (kind' key ids)]
    (h : ∀ key ids, kind key ids ↔ kind' key ids) : s.liquidityOf kind = s.liquidityOf kind' :=
  Table.sum_congr fun p _ => if_congr (h p.key p.incentives) rfl rfl

/-- The liquidity of a kind is nothing where a position holds nothing. -/
theorem backed_liquidity (kind : PositionKey → OrderedSet IncentiveId → Prop)
    [∀ key ids, Decidable (kind key ids)] :
    Backed fun p => if kind p.key p.incentives then p.liquidity.raw else 0 := by
  intro p hp
  simp only [hp, ite_self]

/-- A position counts as changed whether it is kept or, without liquidity, forgotten. -/
theorem total_keepPosition {f : Position → Int} (hf : Backed f) (p : Position) :
    (s.keepPosition p).total f = s.total f + f p - Table.share f (s.positions.get? p.key) := by
  rw [keepPosition]
  split
  next hzero =>
    have hp : f p = 0 := hf p (by simpa [Dec.isZero] using hzero)
    rw [hp, Int.add_zero]
    exact Table.sum_erase s.positions f p.key
  next => exact Table.sum_insert s.positions f p

/-- The position that a request is about has the share of the one that is stored. -/
theorem Target.share_eq {key : PositionKey} {ids : OrderedSet IncentiveId} {p : Position}
    (h : s.Target key ids p) {f : Position → Int} (hf : Backed f) :
    Table.share f (s.positions.get? key) = f p := by
  obtain ⟨hp, -⟩ | ⟨hnone, rfl⟩ := h
  · rw [hp, Table.share_some]
  · rw [hnone, Table.share_none]
    exact (hf _ rfl).symm

/-! ### Positions that hold something -/

/-- Every stored position holds something. -/
def PositionsHold (s : Store) : Prop :=
  ∀ key p, s.positions.get? key = some p → 0 < p.liquidity.raw

/-- Where every position holds something, no kind has negative liquidity. -/
theorem liquidityOf_nonneg (h : s.PositionsHold)
    (kind : PositionKey → OrderedSet IncentiveId → Prop) [∀ key ids, Decidable (kind key ids)] :
    0 ≤ s.liquidityOf kind := by
  refine Table.sum_nonneg fun p hp => ?_
  have hpositive := h _ _ (Table.get?_of_mem hp)
  split_ifs <;> omega

/-- A wider kind has no less liquidity. -/
theorem liquidityOf_mono (h : s.PositionsHold)
    {kind kind' : PositionKey → OrderedSet IncentiveId → Prop}
    [∀ key ids, Decidable (kind key ids)] [∀ key ids, Decidable (kind' key ids)]
    (himp : ∀ key ids, kind key ids → kind' key ids) :
    s.liquidityOf kind ≤ s.liquidityOf kind' := by
  refine Table.sum_le_sum fun p hp => ?_
  have hpositive := h _ _ (Table.get?_of_mem hp)
  by_cases hkind : kind p.key p.incentives
  · rw [if_pos hkind, if_pos (himp _ _ hkind)]
  · rw [if_neg hkind]
    split_ifs <;> omega

/-- A stored position counts with all its liquidity in the kinds that it is of. -/
theorem le_liquidityOf (h : s.PositionsHold)
    {kind : PositionKey → OrderedSet IncentiveId → Prop} [∀ key ids, Decidable (kind key ids)]
    {key : PositionKey} {p : Position} (hp : s.positions.get? key = some p)
    (hkind : kind key p.incentives) : p.liquidity.raw ≤ s.liquidityOf kind := by
  obtain rfl : p.key = key := Table.key_of_get? hp
  refine le_trans (Int.le_of_eq (if_pos hkind).symm)
    (Table.le_sum_of_mem (fun other hother => ?_) (Table.mem_of_get? hp))
  have hpositive := h _ _ (Table.get?_of_mem hother)
  split_ifs <;> omega

/-- No request is about a position that owes liquidity. -/
theorem Target.liquidity_nonneg {key : PositionKey} {ids : OrderedSet IncentiveId} {p : Position}
    (htarget : s.Target key ids p) (h : s.PositionsHold) : 0 ≤ p.liquidity.raw := by
  obtain ⟨hstored, -⟩ | ⟨-, rfl⟩ := htarget
  · exact Int.le_of_lt (h _ _ hstored)
  · exact Int.le_refl 0

/-! ### Totals over ticks -/

/-- A changed tick changes a total over the ticks of its pool by what it then counts, less what it
counted before. Ticks that were never touched must not count. -/
theorem sum_setTick (id : PoolId) (t : Tick) (state : TickState) (id' : PoolId)
    (f : Tick × TickState → Int) (hzero : f (t, TickState.zero) = 0) :
    ((Storage.setTick s id t state).ticksOf id').entries.sum f =
      (s.ticksOf id').entries.sum f +
        if id = id' then f (t, state) - f (t, s.tickAt id t) else 0 := by
  rw [ticksOf_setTick]
  by_cases hid : id = id'
  · subst hid
    have hshare : Table.share f ((s.ticksOf id).entries.get? t) = f (t, s.tickAt id t) := by
      rw [tickAt, Map.get?]
      cases hfound : (s.ticksOf id).entries.get? t with
      | none => exact hzero.symm
      | some entry =>
        have hkey : entry.1 = t := Table.key_of_get? hfound
        rw [← hkey]
        rfl
    rw [if_pos rfl, if_pos rfl]
    refine (Table.sum_insert (s.ticksOf id).entries f (t, state)).trans ?_
    rw [hshare]
    omega
  · rw [if_neg hid, if_neg hid, Int.add_zero]

/-- The net liquidity of the ticks kept for a pool, up to a given one. -/
def netUpTo (s : Store) (id : PoolId) (bound : Tick) : Int :=
  (s.ticksOf id).entries.sum fun entry => if entry.1 ≤ bound then entry.2.stake.net.raw else 0

/-- A changed tick changes the net liquidity from itself on upward. -/
theorem netUpTo_setTick (id : PoolId) (t : Tick) (state : TickState) (id' : PoolId) (bound : Tick) :
    (Storage.setTick s id t state).netUpTo id' bound =
      s.netUpTo id' bound +
        if id = id' ∧ t ≤ bound then state.stake.net.raw - (s.tickAt id t).stake.net.raw
        else 0 := by
  rw [netUpTo, sum_setTick id t state id' _ (ite_self _), netUpTo]
  by_cases hid : id = id' <;> by_cases ht : t ≤ bound <;> simp [hid, ht]

/-! ### What a write keeps -/

/-- The pools that are kept after a pool was written. -/
theorem get?_setPool (s : Store) (p : Pool) (id : PoolId) :
    (Storage.setPool s p).pools.get? id = if p.id = id then some p else s.pools.get? id :=
  Table.get?_insert s.pools p id

/-- Writing a tick keeps the pools. -/
@[simp] theorem pools_setTick (id : PoolId) (t : Tick) (state : TickState) :
    (Storage.setTick s id t state).pools = s.pools := rfl

/-- Keeping a pool keeps the positions. -/
@[simp] theorem positions_keepPool (p : Option Pool) : (s.keepPool p).positions = s.positions := by
  cases p <;> rfl

/-- Keeping a position keeps the pools. -/
@[simp] theorem pools_keepPosition (p : Position) : (s.keepPosition p).pools = s.pools := by
  rw [keepPosition]
  split <;> rfl

/-- Writing a pool keeps the ticks. -/
@[simp] theorem ticksOf_setPool (p : Pool) (id : PoolId) :
    (Storage.setPool s p).ticksOf id = s.ticksOf id := rfl

/-- Keeping a pool keeps the ticks. -/
@[simp] theorem ticksOf_keepPool (p : Option Pool) (id : PoolId) :
    (s.keepPool p).ticksOf id = s.ticksOf id := by
  cases p <;> rfl

/-- Keeping a position keeps the ticks. -/
@[simp] theorem ticksOf_keepPosition (p : Position) (id : PoolId) :
    (s.keepPosition p).ticksOf id = s.ticksOf id := by
  rw [keepPosition]
  split <;> rfl

/-- The state of a tick depends on the ticks of its pool. -/
theorem tickAt_congr {s' : Store} {id : PoolId} (h : s'.ticksOf id = s.ticksOf id) (t : Tick) :
    s'.tickAt id t = s.tickAt id t := by
  simp only [tickAt]
  rw [h]

/-- So do the sums of the net liquidity. -/
theorem netUpTo_congr {s' : Store} {id : PoolId} (h : s'.ticksOf id = s.ticksOf id) (bound : Tick) :
    s'.netUpTo id bound = s.netUpTo id bound := by
  simp only [netUpTo]
  rw [h]

/-- A write of a tick leaves the others. -/
theorem get?_setTick_of_not {id : PoolId} {t : Tick} (s : Store) (state : TickState) {id' : PoolId}
    {t' : Tick} (h : ¬(id = id' ∧ t = t')) :
    ((Storage.setTick s id t state).ticksOf id').get? t' = (s.ticksOf id').get? t' := by
  rw [ticksOf_setTick]
  split
  next hid => exact Map.get?_insert_of_ne _ _ fun ht => h ⟨hid, ht⟩
  next => rfl

/-- A written tick reads as it was written, and every other one as before. -/
theorem tickAt_setTick (id : PoolId) (t : Tick) (state : TickState) (id' : PoolId) (t' : Tick) :
    (Storage.setTick s id t state).tickAt id' t' =
      if id = id' ∧ t = t' then state else s.tickAt id' t' := by
  simp only [tickAt]
  rw [ticksOf_setTick]
  by_cases hid : id = id'
  · subst hid
    rw [if_pos rfl, Map.get?_insert]
    by_cases ht : t = t'
    · simp [ht]
    · simp [ht]
  · simp [hid]

end Store

end RangeLedger
