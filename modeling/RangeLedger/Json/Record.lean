import RangeLedger.Json.Literal
import RangeLedger.Json

/-!
# Records in JSON

A record is written as an object with a field for each of its parts. It is read from an object,
whose fields may come in any order, or from an array of its parts in order. In an object, a part
may not be given twice, and fields that are no part are passed over.

## Main results

* `parts?_record`: the parts of a written record are read back in order.
-/

namespace RangeLedger.Json

/-- The string with the given characters. -/
def text (s : String) : Json := .string (Literal.escape s.toList)

/-- The object with the given fields. -/
def record (fields : List (String × Json)) : Json :=
  .object (fields.map fun field => (Literal.escape field.1.toList, field.2))

/-- The fields of an object by name, if all names can be told. -/
def named? (fields : List (List Char × Json)) : Option (List (String × Json)) :=
  fields.mapM fun field => (Literal.decode? field.1).map fun name => (String.ofList name, field.2)

/-- The value of the one field with a name: `some none` if there is no such field, and `none` if
there are several. -/
def single? (fields : List (String × Json)) (name : String) : Option (Option Json) :=
  match fields.filter fun field => field.1 == name with
  | [] => some none
  | [field] => some (some field.2)
  | _ => none

/-- The parts of a record with the given names, in their order; each of them may be missing. -/
def parts? (names : List String) : Json → Option (List (Option Json))
  | .object fields => do
    let named ← named? fields
    names.mapM (single? named)
  | .array items =>
    if items.length ≤ names.length then
      some (items.map some ++ List.replicate (names.length - items.length) none)
    else none
  | _ => none

/-- The parts of a record with the given names, none of which may be missing. -/
def allParts? (names : List String) (j : Json) : Option (List Json) := do
  (← j.parts? names).mapM id

/-- Whether every field of an object is a part with one of the given names. -/
def onlyParts (names : List String) : Json → Bool
  | .object fields =>
    fields.all fun field =>
      match Literal.decode? field.1 with
      | some name => names.contains (String.ofList name)
      | none => false
  | _ => true

/-- Names of fields are decoded from what was written for them. -/
theorem named?_record (fields : List (String × Json)) :
    named? (fields.map fun field => (Literal.escape field.1.toList, field.2)) = some fields := by
  induction fields with
  | nil => rfl
  | cons field fields ih =>
    simp only [named?, List.map_cons, List.mapM_cons, Literal.decode?_escape, Option.map_some,
      String.ofList_toList] at ih ⊢
    rw [ih]
    rfl

/-- Among fields of different names, one is found by its name. -/
theorem single?_of_mem {fields : List (String × Json)} (h : (fields.map Prod.fst).Nodup)
    {field : String × Json} (hf : field ∈ fields) :
    single? fields field.1 = some (some field.2) := by
  have : fields.filter (fun f => f.1 == field.1) = [field] := by
    induction fields with
    | nil => cases hf
    | cons g fields ih =>
      simp only [List.map_cons, List.nodup_cons] at h
      rcases List.mem_cons.1 hf with rfl | hf
      · rw [List.filter_cons_of_pos (by simp)]
        congr 1
        rw [List.filter_eq_nil_iff]
        intro f hf heq
        exact h.1 (List.mem_map.2 ⟨f, hf, by simpa using heq⟩)
      · rw [List.filter_cons_of_neg, ih h.2 hf]
        simp only [beq_iff_eq]
        intro heq
        exact h.1 (List.mem_map.2 ⟨field, hf, heq.symm⟩)
  simp [single?, this]

/-- The parts of a written record are read back in order, if their names differ. -/
theorem parts?_record {fields : List (String × Json)} (h : (fields.map Prod.fst).Nodup) :
    (record fields).parts? (fields.map Prod.fst) =
      some (fields.map fun field => some field.2) := by
  have key (part : List (String × Json)) (hpart : ∀ f ∈ part, f ∈ fields) :
      (part.map Prod.fst).mapM (single? fields) = some (part.map fun f => some f.2) := by
    induction part with
    | nil => rfl
    | cons f part ih =>
      simp only [List.map_cons, List.mapM_cons, single?_of_mem h (hpart f (by simp))]
      rw [ih fun g hg => hpart g (by simp [hg])]
      rfl
  simp only [record, parts?, named?_record, bind, Option.bind]
  exact key fields fun _ hf => hf

end RangeLedger.Json
