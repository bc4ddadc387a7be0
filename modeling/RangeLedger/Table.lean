/-!
# Tables

A table is a finite collection of rows, at most one for each key, listed in strictly ascending
order of their keys. The key is computed from the row, so a row can never be filed under a key
that is not its own.

A table is determined by its look-ups (`Table.ext_get?`), and each operation is described by what
it does to them.

## Main results

* `get?_insert`, `get?_erase`: what a look-up answers after an insertion or a removal.
* `mem_toList_iff`: the rows are the answers of the look-ups.
* `ext_get?`: two tables with the same look-ups are equal.
-/

namespace RangeLedger

universe u v

variable {κ : Type u} {ν : Type v} [Ord κ] {key : ν → κ}

/-- A finite collection of rows in strictly ascending order of their keys. -/
@[ext]
structure Table (key : ν → κ) where
  /-- The rows, from the lowest key to the highest. -/
  toList : List ν
  sorted : toList.Pairwise fun a b => compare (key a) (key b) = .lt

namespace Table

/-! ### Lists of rows -/

/-- Files a row in a sorted list, in place of the row with the same key if there is one. -/
def insertRow (key : ν → κ) (row : ν) : List ν → List ν
  | [] => [row]
  | r :: rest =>
    match compare (key row) (key r) with
    | .lt => row :: r :: rest
    | .eq => row :: rest
    | .gt => r :: insertRow key row rest

/-- The row with a given key. -/
def findRow (key : ν → κ) (k : κ) (rows : List ν) : Option ν :=
  rows.find? fun r => compare (key r) k == .eq

/-- The rows with other keys than the given one. -/
def dropRow (key : ν → κ) (k : κ) (rows : List ν) : List ν :=
  rows.filter fun r => !(compare (key r) k == .eq)

/-- A filed row is the row itself or was there before. -/
theorem mem_insertRow {row r : ν} {rows : List ν} (h : r ∈ insertRow key row rows) :
    r = row ∨ r ∈ rows := by
  induction rows with
  | nil => exact .inl (by simpa [insertRow] using h)
  | cons a rest ih =>
    unfold insertRow at h
    split at h
    · simpa using h
    · rcases List.mem_cons.1 h with h | h
      · exact .inl h
      · exact .inr (List.mem_cons_of_mem _ h)
    · rcases List.mem_cons.1 h with h | h
      · exact .inr (h ▸ List.mem_cons_self)
      · rcases ih h with h | h
        · exact .inl h
        · exact .inr (List.mem_cons_of_mem _ h)

/-! ### Tables -/

/-- The table without rows. -/
def empty : Table key := ⟨[], .nil⟩

instance : EmptyCollection (Table key) := ⟨empty⟩
instance : Inhabited (Table key) := ⟨empty⟩

instance [DecidableEq ν] : DecidableEq (Table key) := fun s t =>
  decidable_of_iff (s.toList = t.toList) ⟨Table.ext, congrArg toList⟩

/-- The row with a given key. -/
def get? (t : Table key) (k : κ) : Option ν := findRow key k t.toList

/-- Whether a row has the given key. -/
def contains (t : Table key) (k : κ) : Bool := (t.get? k).isSome

/-- Removes the row with a given key. -/
def erase (t : Table key) (k : κ) : Table key :=
  ⟨dropRow key k t.toList, t.sorted.filter _⟩

/-- Whether there are no rows. -/
def isEmpty (t : Table key) : Bool := t.toList.isEmpty

/-- The keys, ascending. -/
def keys (t : Table key) : List κ := t.toList.map key

/-- An answer of a look-up is a row. -/
theorem mem_of_get? {t : Table key} {k : κ} {row : ν} (h : t.get? k = some row) :
    row ∈ t.toList :=
  List.mem_of_find?_eq_some h

section Lawful

variable [Std.LawfulEqOrd κ]

/-- A look-up answers a row under its own key. -/
theorem key_of_get? {t : Table key} {k : κ} {row : ν} (h : t.get? k = some row) :
    key row = k := by
  have := List.find?_some h
  simpa using this

/-- A row is the answer of the look-up of its key. -/
theorem get?_of_mem {t : Table key} {row : ν} (h : row ∈ t.toList) :
    t.get? (key row) = some row := by
  obtain ⟨rows, sorted⟩ := t
  simp only [get?, findRow] at *
  induction rows with
  | nil => cases h
  | cons a rest ih =>
    obtain ⟨ha, hrest⟩ := List.pairwise_cons.1 sorted
    rcases List.mem_cons.1 h with rfl | h
    · simp
    · have hne : compare (key a) (key row) ≠ .eq := by simp [ha row h]
      simp [hne, ih hrest h]

/-- The rows are the answers of the look-ups. -/
theorem mem_toList_iff {t : Table key} {row : ν} :
    row ∈ t.toList ↔ t.get? (key row) = some row :=
  ⟨get?_of_mem, mem_of_get?⟩

/-- **Looking up a row behind a filed one** finds the filed row under its own key, and under every
other key what was found before. -/
theorem findRow_insertRow [DecidableEq κ] (row : ν) (k : κ) (rows : List ν)
    (h : rows.Pairwise fun a b => compare (key a) (key b) = .lt) :
    findRow key k (insertRow key row rows) =
      if key row = k then some row else findRow key k rows := by
  induction rows with
  | nil =>
    by_cases hk : key row = k <;> simp [findRow, insertRow, hk]
  | cons a rest ih =>
    obtain ⟨ha, hrest⟩ := List.pairwise_cons.1 h
    have ih := ih hrest
    simp only [findRow] at ih ⊢
    unfold insertRow
    split
    next hlt =>
      by_cases hk : key row = k <;> simp [hk, List.find?_cons]
    next heq =>
      rw [Std.LawfulEqCmp.compare_eq_iff_eq] at heq
      by_cases hk : key row = k
      · simp [hk]
      · simp [hk, ← heq]
    next hgt =>
      by_cases hk : key row = k
      · subst hk
        have hne : compare (key a) (key row) ≠ .eq := by
          intro hEq
          rw [Std.LawfulEqCmp.compare_eq_iff_eq] at hEq
          rw [hEq] at hgt
          simp at hgt
        simp [hne, ih]
      · simp only [if_neg hk] at ih ⊢
        simp only [List.find?_cons, ih]

/-- What a look-up answers after a removal. -/
theorem get?_erase [DecidableEq κ] (t : Table key) (k k' : κ) :
    (t.erase k).get? k' = if k = k' then none else t.get? k' := by
  simp only [get?, erase, findRow, dropRow, List.find?_filter]
  by_cases hk : k = k'
  · subst hk
    simp
  · rw [if_neg hk]
    congr 1
    funext r
    by_cases hr : compare (key r) k' = .eq
    · rw [Std.LawfulEqCmp.compare_eq_iff_eq] at hr
      simp [hr, Ne.symm hk]
    · simp [hr]

end Lawful

/-- A row that belongs behind all others is filed at the end. -/
theorem insertRow_of_forall_lt [Std.TransOrd κ] {row : ν} {rows : List ν}
    (h : ∀ r ∈ rows, compare (key r) (key row) = .lt) :
    insertRow key row rows = rows ++ [row] := by
  induction rows with
  | nil => rfl
  | cons r rest ih =>
    have hr : compare (key row) (key r) = .gt := Std.OrientedCmp.gt_iff_lt.2 (h r (by simp))
    simp only [insertRow, hr, List.cons_append]
    rw [ih fun s hs => h s (by simp [hs])]

/-- Tables with the same rows are equal: a sorted list without repetitions is determined by its
members. -/
theorem ext_mem [Std.TransOrd κ] {s t : Table key}
    (h : ∀ row, row ∈ s.toList ↔ row ∈ t.toList) : s = t := by
  have nodup (u : Table key) : u.toList.Nodup :=
    u.sorted.imp fun hab heq => by subst heq; simp at hab
  apply Table.ext
  apply @List.Perm.eq_of_pairwise _ (fun a b => compare (key a) (key b) = .lt) _ _
    (fun a b _ _ hab hba => absurd hba (by rw [Std.OrientedOrd.eq_swap, hab]; simp))
    s.sorted t.sorted
  exact (List.perm_ext_iff_of_nodup (nodup s) (nodup t)).2 h

/-- Tables with the same look-ups are equal. -/
theorem ext_get? [Std.TransOrd κ] [Std.LawfulEqOrd κ] {s t : Table key}
    (h : ∀ k, s.get? k = t.get? k) : s = t :=
  ext_mem fun row => by rw [mem_toList_iff, mem_toList_iff, h]

/-! ### Insertions -/

variable [Std.TransOrd κ] [Std.LawfulEqOrd κ]

/-- Filing a row keeps the order. -/
theorem pairwise_insertRow (row : ν) {rows : List ν}
    (h : rows.Pairwise fun a b => compare (key a) (key b) = .lt) :
    (insertRow key row rows).Pairwise fun a b => compare (key a) (key b) = .lt := by
  induction rows with
  | nil => simp [insertRow]
  | cons a rest ih =>
    obtain ⟨ha, hrest⟩ := List.pairwise_cons.1 h
    unfold insertRow
    split
    next hlt =>
      refine List.pairwise_cons.2 ⟨fun b hb => ?_, h⟩
      rcases List.mem_cons.1 hb with rfl | hb
      · exact hlt
      · exact Std.TransCmp.lt_trans hlt (ha b hb)
    next heq =>
      rw [Std.LawfulEqCmp.compare_eq_iff_eq] at heq
      exact List.pairwise_cons.2 ⟨fun b hb => heq ▸ ha b hb, hrest⟩
    next hgt =>
      refine List.pairwise_cons.2 ⟨fun b hb => ?_, ih hrest⟩
      rcases mem_insertRow hb with rfl | hb
      · exact Std.OrientedCmp.gt_iff_lt.1 hgt
      · exact ha b hb

/-- Files a row, in place of the row with the same key if there is one. -/
def insert (t : Table key) (row : ν) : Table key :=
  ⟨insertRow key row t.toList, pairwise_insertRow row t.sorted⟩

/-- Files the rows of a list one after the other, so that of two rows with one key the later
one stays. -/
def insertMany (t : Table key) (rows : List ν) : Table key := rows.foldl insert t

/-- The table of the rows of a list; of two rows with one key the later one stays. -/
def ofList (rows : List ν) : Table key := empty.insertMany rows

/-- The table of its own rows is the table. -/
@[simp] theorem ofList_toList (t : Table key) : ofList t.toList = t := by
  have step (rows : List ν) : ∀ acc : Table key,
      (acc.toList ++ rows).Pairwise (fun a b => compare (key a) (key b) = .lt) →
        (acc.insertMany rows).toList = acc.toList ++ rows := by
    induction rows with
    | nil => intro acc _; simp [insertMany]
    | cons row rows ih =>
      intro acc h
      have hrow : ∀ r ∈ acc.toList, compare (key r) (key row) = .lt := fun r hr =>
        (List.pairwise_append.1 h).2.2 r hr row (by simp)
      have hins : (acc.insert row).toList = acc.toList ++ [row] := insertRow_of_forall_lt hrow
      have hnext := ih (acc.insert row) (by rw [hins]; simpa using h)
      rw [hins] at hnext
      simpa [insertMany] using hnext
  exact Table.ext (step t.toList empty (by simpa [empty] using t.sorted))

/-- What a look-up answers after an insertion. -/
theorem get?_insert [DecidableEq κ] (t : Table key) (row : ν) (k : κ) :
    (t.insert row).get? k = if key row = k then some row else t.get? k :=
  findRow_insertRow row k t.toList t.sorted

end Table

end RangeLedger
