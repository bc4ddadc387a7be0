import RangeLedger.Proofs.Json.Reading

/-!
# Codecs that lose nothing

A codec **round-trips** if the text of every value reads back as the value. Two things have to hold
for that: the JSON values of the codec have to be read as they are written, and it has to decode what
it encodes. The first one does not depend on where a value stands, but for the arrays: they are read
in another way where a number of bytes is expected. So a codec that writes no array is **legible**
whatever is expected.

## Main results

* `Json.allParts?_of_names`: the parts of a written record are read back under their names.
* `Codec.idMap_legible`, `Codec.readsBack_set`: maps and sets are read as they are written.
* `Codec.Lawful.roundTrips`, `Codec.Legible.roundTrips`: both things together.
-/

namespace RangeLedger

namespace Json

section

variable {fields : List (String × Json)} {names : List String}
  (hnames : fields.map Prod.fst = names)

include hnames

/-- A written record has no other parts than those that it is written from. -/
theorem onlyParts_record : (record fields).onlyParts names = true := by
  subst hnames
  refine List.all_eq_true.2 fun field hmem => ?_
  obtain ⟨part, hpart, rfl⟩ := List.mem_map.1 hmem
  simp only [Literal.decode?_escape, String.ofList_toList, List.contains_iff_mem]
  exact List.mem_map_of_mem hpart

variable (h : names.Nodup)

include h

/-- The parts of a written record are read back under their names. -/
theorem parts?_of_names :
    (record fields).parts? names = some (fields.map fun field => some field.2) := by
  subst hnames
  exact parts?_record h

/-- None of them is missing. -/
theorem allParts?_of_names : (record fields).allParts? names = some (fields.map Prod.snd) := by
  rw [allParts?, parts?_of_names hnames h]
  change (fields.map fun field => some field.2).mapM id = some (fields.map Prod.snd)
  rw [List.mapM_map]
  exact List.mapM_pure

end

end Json

namespace Codec

variable {α : Type} {c : Codec α}

/-- Nothing is lost on the way to a text and back. -/
def RoundTrips (c : Codec α) : Prop := ∀ a, c.read? (c.write a) = some a

/-- What is written is read as it is written, whatever is expected. -/
def Legible (c : Codec α) : Prop := ∀ shape a, Json.ReadsBack shape (c.encode a)

/-- A lawful codec loses nothing if what it encodes is read back as expected. -/
theorem Lawful.roundTrips (h : c.Lawful) (hread : ∀ a, Json.ReadsBack c.shape (c.encode a)) :
    c.RoundTrips := by
  intro a
  rw [read?, write, Json.read?_toText (hread a), Option.bind_some, h a]

/-- A lawful and legible codec loses nothing. -/
theorem Legible.roundTrips (h : c.Legible) (hlawful : c.Lawful) : c.RoundTrips :=
  hlawful.roundTrips (h c.shape)

/-! ### Single values -/

/-- The number of a bounded integer is read as it is written. -/
theorem bounded_legible {lo hi : Int} : (bounded : Codec (Bounded lo hi)).Legible := fun shape n =>
  .int shape n.val

/-- A truth value is read as it is written. -/
theorem flag_legible : flag.Legible := Json.ReadsBack.bool

/-- A string is read as it is written. -/
theorem text_legible : text.Legible := Json.ReadsBack.text

/-- So is every text that stands for a value. -/
theorem ofText_legible (toText : α → String) (ofText? : String → Option α) :
    (ofText toText ofText?).Legible := fun shape a => .text shape (toText a)

/-! ### Collections -/

/-- A set is read as it is written, where just any value is expected. -/
theorem readsBack_set {κ : Type} [Ord κ] [Std.TransOrd κ] [Std.LawfulEqOrd κ] {c : Codec κ}
    (h : c.Legible) (s : OrderedSet κ) : Json.ReadsBack .any ((set c).encode s) := by
  refine .array fun item hmem => ?_
  obtain ⟨k, -, rfl⟩ := List.mem_map.1 hmem
  exact h .any k

/-- **A map by number is legible** if its values are. -/
theorem idMap_legible (h : c.Legible) : (idMap c).Legible := by
  intro shape m
  refine .object fun field hmem => ?_
  obtain ⟨⟨id, a⟩, -, rfl⟩ := List.mem_map.1 hmem
  -- the digits of a number are written like a string, without an escape
  have hname : Literal.escape (idName id) = idName id :=
    Literal.escape_of_allDigits (Digits.allDigits_ofNat id.toNat)
  exact ⟨⟨idName id, hname⟩, h _ a⟩

end Codec

end RangeLedger
