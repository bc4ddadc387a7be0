import RangeLedger.Table

/-!
# Maps and sets

A map is a table of pairs filed under their first component, and a set is a table of keys filed
under themselves. Both list their contents in ascending order of keys.

## Main results

* `Map.get?_insert`, `Map.get?_update`: the operations through the look-ups.
* `Map.ext_get?`: maps with the same look-ups are equal.
-/

namespace RangeLedger

universe u v

/-- A finite set, listed in ascending order. -/
abbrev OrderedSet (κ : Type u) [Ord κ] := Table (id : κ → κ)

/-- A finite map, listed in ascending order of keys. -/
@[ext]
structure Map (κ : Type u) (ν : Type v) [Ord κ] where
  /-- The pairs of a key and its value. -/
  entries : Table (Prod.fst : κ × ν → κ)

namespace Map

variable {κ : Type u} {ν : Type v} [Ord κ]

/-- The map without entries. -/
def empty : Map κ ν := ⟨Table.empty⟩

instance : EmptyCollection (Map κ ν) := ⟨empty⟩
instance : Inhabited (Map κ ν) := ⟨empty⟩

instance [DecidableEq κ] [DecidableEq ν] : DecidableEq (Map κ ν) := fun m n =>
  decidable_of_iff (m.entries = n.entries) ⟨Map.ext, congrArg entries⟩

/-- The pairs, in ascending order of keys. -/
def toList (m : Map κ ν) : List (κ × ν) := m.entries.toList

/-- The keys, ascending. -/
def keys (m : Map κ ν) : List κ := m.toList.map Prod.fst

/-- The values, in ascending order of their keys. -/
def values (m : Map κ ν) : List ν := m.toList.map Prod.snd

/-- The value at a key. -/
def get? (m : Map κ ν) (k : κ) : Option ν := (m.entries.get? k).map Prod.snd

/-- The value at a key, or a default. -/
def getD (m : Map κ ν) (k : κ) (default : ν) : ν := (m.get? k).getD default

/-- Whether a key has a value. -/
def contains (m : Map κ ν) (k : κ) : Bool := (m.get? k).isSome

/-- Whether there are no entries. -/
def isEmpty (m : Map κ ν) : Bool := m.entries.isEmpty

/-! ### Look-ups -/

section Lawful

variable [Std.LawfulEqOrd κ]

/-- The pairs are the answers of the look-ups. -/
theorem get?_eq_some_iff_mem {m : Map κ ν} {k : κ} {v : ν} :
    m.get? k = some v ↔ (k, v) ∈ m.toList := by
  constructor
  · intro h
    obtain ⟨⟨k', v'⟩, hrow, rfl⟩ := Option.map_eq_some_iff.1 h
    obtain rfl : k' = k := Table.key_of_get? hrow
    exact Table.mem_of_get? hrow
  · intro h
    have := Table.get?_of_mem (t := m.entries) h
    simp only at this
    simp [get?, this]

/-- The keys are those that have a value. -/
theorem contains_iff_mem_keys {m : Map κ ν} {k : κ} : m.contains k = true ↔ k ∈ m.keys := by
  rw [contains, Option.isSome_iff_exists, keys]
  simp [get?_eq_some_iff_mem]

/-- Maps with the same look-ups are equal. -/
theorem ext_get? [Std.TransOrd κ] {m n : Map κ ν} (h : ∀ k, m.get? k = n.get? k) : m = n := by
  apply Map.ext
  apply Table.ext_mem
  rintro ⟨k, v⟩
  have hm := get?_eq_some_iff_mem (m := m) (k := k) (v := v)
  have hn := get?_eq_some_iff_mem (m := n) (k := k) (v := v)
  exact hm.symm.trans (h k ▸ hn)

end Lawful

/-! ### Giving values -/

variable [Std.TransOrd κ] [Std.LawfulEqOrd κ]

/-- Gives a key a value, in place of the one it has. -/
def insert (m : Map κ ν) (k : κ) (v : ν) : Map κ ν := ⟨m.entries.insert (k, v)⟩

/-- Gives a key a value, unless it has one. -/
def insertNew (m : Map κ ν) (k : κ) (v : ν) : Map κ ν :=
  if m.contains k then m else m.insert k v

/-- The map of a list of pairs; of two pairs with one key the later one stays. -/
def ofList (pairs : List (κ × ν)) : Map κ ν := ⟨Table.ofList pairs⟩

/-- The entries of `n` on top of those of `m`. -/
def update (m n : Map κ ν) : Map κ ν :=
  n.toList.foldl (fun acc kv => acc.insert kv.1 kv.2) m

/-- The map of its own pairs is the map. -/
@[simp] theorem ofList_toList (m : Map κ ν) : ofList m.toList = m :=
  Map.ext (Table.ofList_toList m.entries)

/-! ### Look-ups of given values -/

variable [DecidableEq κ]

/-- What a look-up answers after a key was given a value. -/
theorem get?_insert (m : Map κ ν) (k k' : κ) (v : ν) :
    (m.insert k v).get? k' = if k = k' then some v else m.get? k' := by
  simp only [get?, insert, Table.get?_insert]
  split <;> rfl

/-- The key has the value it was given. -/
@[simp] theorem get?_insert_self (m : Map κ ν) (k : κ) (v : ν) :
    (m.insert k v).get? k = some v := by
  simp [get?_insert]

/-- The other keys keep their values. -/
theorem get?_insert_of_ne (m : Map κ ν) {k k' : κ} (v : ν) (h : k ≠ k') :
    (m.insert k v).get? k' = m.get? k' := by
  simp [get?_insert, h]

/-- What a look-up answers after a key was given a value unless it has one. -/
theorem get?_insertNew (m : Map κ ν) (k k' : κ) (v : ν) :
    (m.insertNew k v).get? k' = if k = k' then some ((m.get? k).getD v) else m.get? k' := by
  unfold insertNew contains
  split
  next h =>
    obtain ⟨w, hw⟩ := Option.isSome_iff_exists.1 h
    by_cases hk : k = k'
    · subst hk; simp [hw]
    · simp [hk]
  next h =>
    simp only [Option.not_isSome_iff_eq_none] at h
    simp [get?_insert, h]

/-- A key that is given a value unless it has one has a value then. -/
theorem contains_insertNew (m : Map κ ν) (k k' : κ) (v : ν) :
    (m.insertNew k v).contains k' = true ↔ m.contains k' = true ∨ k' = k := by
  rw [contains, get?_insertNew, contains]
  by_cases hk : k = k'
  · simp [hk]
  · simp [hk, Ne.symm hk]

/-- The same for all keys of a list. -/
theorem contains_foldl_insertNew (m : Map κ ν) (v : ν) (ks : List κ) (k : κ) :
    (ks.foldl (fun m k => m.insertNew k v) m).contains k = true ↔
      m.contains k = true ∨ k ∈ ks := by
  induction ks generalizing m with
  | nil => simp
  | cons first rest ih => rw [List.foldl_cons, ih, contains_insertNew, List.mem_cons, or_assoc]

/-- An entry of `n` hides the one of `m`. -/
theorem get?_update (m n : Map κ ν) (k : κ) :
    (m.update n).get? k = (n.get? k).or (m.get? k) := by
  have key (pairs : List (κ × ν)) (hp : pairs.Pairwise fun a b => compare a.1 b.1 = .lt) :
      ∀ acc : Map κ ν,
        (pairs.foldl (fun acc kv => acc.insert kv.1 kv.2) acc).get? k =
          ((Table.findRow Prod.fst k pairs).map Prod.snd).or (acc.get? k) := by
    induction pairs with
    | nil => intro acc; simp [Table.findRow]
    | cons a rest ih =>
      intro acc
      obtain ⟨ha, hrest⟩ := List.pairwise_cons.1 hp
      rw [List.foldl_cons, ih hrest, get?_insert]
      by_cases hk : a.1 = k
      · have hnone : Table.findRow Prod.fst k rest = none := by
          simp only [Table.findRow, List.find?_eq_none]
          intro b hb heq
          have hlt := ha b hb
          simp only [beq_iff_eq, Std.LawfulEqCmp.compare_eq_iff_eq] at heq
          rw [hk, heq] at hlt
          simp at hlt
        rw [hnone]
        simp [Table.findRow, hk]
      · simp [Table.findRow, hk]
  exact key n.entries.toList n.entries.sorted m

end Map

end RangeLedger
