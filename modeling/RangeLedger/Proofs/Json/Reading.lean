import RangeLedger.Json.Codec
import RangeLedger.Proofs.Text.Digits

/-!
# Values that read back

A value is read up to its end, whatever follows it: a string up to the first quote that is not
escaped, a collection up to its closing bracket or brace. Only a number does not tell where it ends.
In a text that is written, a value is followed by a comma, by a closing bracket or brace, or by
nothing, and none of these can be taken for a part of a number. So a value **reads back** if it is
read as it is written in front of any such rest.

Arrays and objects read back if their items and fields do. The reader takes one step for a value, and
one for an item or a field, and each of them has a character of its own in a text without blanks. So
a value that is written is read in no more steps than it has characters.

## Main results

* `ReadsBack.int`, `ReadsBack.bool`, `ReadsBack.text`: single values read back.
* `ReadsBack.array`, `ReadsBack.object`, `ReadsBack.record`: collections read back if what they hold
  does.
* `read?_toText`: the text of a value that reads back denotes the value.
-/

namespace RangeLedger

namespace Literal

/-- A digit needs no escape. -/
theorem escapeChar_of_isDigit {c : Char} (h : c.isDigit = true) : escapeChar c = [c] := by
  have hzero := (Digits.isDigit_iff.1 h).1
  have hspace : ¬c < ' ' := fun hlt => absurd hzero (Nat.not_le.2 (Nat.lt_trans hlt (by decide)))
  unfold escapeChar
  split
  case h_8 => exact if_neg hspace
  all_goals exact absurd h (by decide)

/-- Digits are their own literal. -/
theorem escape_of_allDigits {ds : List Char} (h : Digits.allDigits ds = true) : escape ds = ds := by
  induction ds with
  | nil => rfl
  | cons c ds ih =>
    obtain ⟨hc, hds⟩ := Digits.allDigits_cons.1 h
    have hrest : ds.flatMap escapeChar = ds := ih hds
    rw [escape, List.flatMap_cons, escapeChar_of_isDigit hc, hrest]
    rfl

end Literal

namespace Json

/-! ### Where a value starts and ends -/

/-- What may follow a value in a text that is written. -/
def Ends : List Char → Prop
  | [] => True
  | c :: _ => c = ',' ∨ c = ']' ∨ c = '\x7d'

/-- A text starts with something other than a blank or a closing bracket. -/
def Starts (cs : List Char) : Prop := ∃ c rest, cs = c :: rest ∧ isBlank c = false ∧ c ≠ ']'

/-- How a text starts does not depend on what is put behind it. -/
theorem Starts.append {cs : List Char} (h : Starts cs) (rest : List Char) : Starts (cs ++ rest) := by
  obtain ⟨c, cs, rfl, hblank, hclose⟩ := h
  exact ⟨c, cs ++ rest, rfl, hblank, hclose⟩

/-- In front of a text that starts there are no blanks to skip. -/
theorem Starts.skipBlanks_eq {cs : List Char} (h : Starts cs) : skipBlanks cs = cs := by
  obtain ⟨c, rest, rfl, hblank, -⟩ := h
  rw [skipBlanks, List.dropWhile_cons, hblank]
  rfl

/-! ### Numbers -/

/-- A number starts with its sign or with a digit. -/
theorem starts_of_number {c : Char} (hc : c = '-' ∨ c.isDigit = true) (rest : List Char) :
    Starts (c :: rest) := by
  refine ⟨c, rest, rfl, ?_, ?_⟩
  · rw [Bool.eq_false_iff]
    intro hblank
    simp only [isBlank, Bool.or_eq_true, beq_iff_eq] at hblank
    rcases hblank with ((rfl | rfl) | rfl) | rfl <;> exact absurd hc (by decide)
  · rintro rfl
    exact absurd hc (by decide)

/-- What starts like a number is read as a number. -/
theorem value?_number {c : Char} (hc : c = '-' ∨ c.isDigit = true) (fuel : Nat) (shape : Shape)
    (cs : List Char) : value? (fuel + 1) shape (c :: cs) = number? (c :: cs) := by
  rw [value?, (starts_of_number hc cs).skipBlanks_eq]
  split
  case h_7 => rfl
  all_goals
    rename_i heq
    injection heq with heq
    subst heq
    exact absurd hc (by decide)

/-- What is written for a natural number starts with a digit. -/
theorem exists_ofNat_eq_cons (n : Nat) : ∃ c cs, Digits.ofNat n = c :: cs ∧ c.isDigit = true := by
  have hne : Digits.ofNat n ≠ [] := Nat.toDigits_ne_nil
  obtain ⟨c, cs, hdigits⟩ := List.exists_cons_of_ne_nil hne
  have hmem : c ∈ Digits.ofNat n := hdigits ▸ List.mem_cons_self
  exact ⟨c, cs, hdigits, Digits.isDigit_of_mem_ofNat hmem⟩

/-- What is written for an integer starts with a sign or a digit. -/
theorem exists_intChars_eq_cons (n : Int) :
    ∃ c cs, intChars n = c :: cs ∧ (c = '-' ∨ c.isDigit = true) := by
  by_cases hneg : n < 0
  · rw [intChars, if_pos hneg]
    exact ⟨_, _, rfl, .inl rfl⟩
  · rw [intChars, if_neg hneg, List.nil_append]
    obtain ⟨c, cs, hdigits, hc⟩ := exists_ofNat_eq_cons n.natAbs
    exact ⟨c, cs, hdigits, .inr hc⟩

section

variable {rest : List Char} (hrest : Ends rest)

include hrest

/-- Digits end where a value ends. -/
theorem digits?_append {ds : List Char} (hds : Digits.allDigits ds = true) (hne : ds ≠ []) :
    digits? (ds ++ rest) = some (ds, rest) := by
  have hstop : rest.takeWhile Char.isDigit = [] ∧ rest.dropWhile Char.isDigit = rest := by
    cases rest with
    | nil => exact ⟨rfl, rfl⟩
    | cons c rest => rcases hrest with rfl | rfl | rfl <;> exact ⟨rfl, rfl⟩
  have hall : ∀ c ∈ ds, c.isDigit = true := List.all_eq_true.1 hds
  rw [digits?, List.takeWhile_append_of_pos hall, List.dropWhile_append_of_pos hall, hstop.1,
    hstop.2, List.append_nil]
  exact if_neg (by simpa using hne)

/-- What may follow a value is no fraction. -/
theorem fraction?_of_ends : fraction? rest = some ([], rest) := by
  cases rest with
  | nil => rfl
  | cons c rest => rcases hrest with rfl | rfl | rfl <;> rfl

/-- What may follow a value is no exponent. -/
theorem exponent?_of_ends : exponent? rest = some ([], rest) := by
  cases rest with
  | nil => rfl
  | cons c rest => rcases hrest with rfl | rfl | rfl <;> rfl

/-- The digits of a number are read as the number or as its negative, but for minus zero. -/
theorem unsigned?_ofNat (negative : Bool) (n : Nat) (h : ¬(negative = true ∧ (n : Int) = 0)) :
    unsigned? negative (Digits.ofNat n ++ rest) =
      some (.int (if negative then -(n : Int) else n), rest) := by
  have hdigits := digits?_append hrest (Digits.allDigits_ofNat n) Nat.toDigits_ne_nil
  have hzero : ¬((Digits.ofNat n).head? = some '0' ∧ (Digits.ofNat n).length ≠ 1) := by
    rintro ⟨hhead, hlength⟩
    rw [Digits.ofNat_eq_of_head? hhead] at hlength
    exact hlength rfl
  have hwhole : ofNumeral negative (Digits.ofNat n) [] [] =
      .int (if negative then -(n : Int) else n) := by
    rw [ofNumeral, Digits.value_ofNat]
    exact if_pos ⟨rfl, rfl, h⟩
  rw [unsigned?, hdigits]
  simp only [Option.bind_eq_bind, Option.bind_some, if_neg hzero, fraction?_of_ends hrest,
    exponent?_of_ends hrest, hwhole, Option.pure_def]

/-- An integer is read as it is written. -/
theorem number?_intChars (n : Int) : number? (intChars n ++ rest) = some (.int n, rest) := by
  by_cases hneg : n < 0
  · have hread := unsigned?_ofNat hrest true n.natAbs (by omega)
    rw [if_pos rfl, Int.natCast_natAbs, abs_of_neg hneg, Int.neg_neg] at hread
    rw [intChars, if_pos hneg]
    exact hread
  · have hread := unsigned?_ofNat hrest false n.natAbs (by simp)
    rw [if_neg Bool.false_ne_true, Int.natCast_natAbs, abs_of_nonneg (Int.not_lt.1 hneg)] at hread
    obtain ⟨c, cs, hdigits, hc⟩ := exists_ofNat_eq_cons n.natAbs
    rw [intChars, if_neg hneg, List.nil_append]
    rw [hdigits, List.cons_append] at hread ⊢
    rw [number?]
    · exact hread
    · -- a digit is no minus sign
      intro after heq
      injection heq with heq
      subst heq
      exact absurd hc (by decide)

end

/-! ### Single values -/

/-- A value of a shape is read as it is written, in front of whatever ends it, in no more steps than
it has characters. -/
structure ReadsBack (shape : Shape) (j : Json) : Prop where
  starts : Starts j.chars
  reads : ∀ fuel rest, j.chars.length ≤ fuel → Ends rest →
    value? fuel shape (j.chars ++ rest) = some (j, rest)

/-- **An integer is read back**, whatever is expected. -/
theorem ReadsBack.int (shape : Shape) (n : Int) : ReadsBack shape (.int n) := by
  obtain ⟨c, cs, hchars, hc⟩ := exists_intChars_eq_cons n
  constructor
  · rw [chars, hchars]
    exact starts_of_number hc cs
  · intro fuel rest hfuel hrest
    have hnumber := number?_intChars hrest n
    rw [chars] at hfuel ⊢
    rw [hchars] at hfuel hnumber ⊢
    cases fuel with
    | zero => cases hfuel
    | succ fuel => exact (value?_number hc fuel shape (cs ++ rest)).trans hnumber

/-- A truth value is read back, whatever is expected. -/
theorem ReadsBack.bool (shape : Shape) (b : Bool) : ReadsBack shape (.bool b) := by
  constructor
  · cases b <;> exact ⟨_, _, rfl, rfl, by decide⟩
  · intro fuel rest hfuel hrest
    cases fuel with
    | zero => cases b <;> cases hfuel
    | succ fuel => cases b <;> rfl

/-- A quotation mark is no blank. -/
theorem skipBlanks_quote (rest : List Char) : skipBlanks ('"' :: rest) = '"' :: rest := rfl

/-- A written string is read in front of any text. -/
theorem value?_text (fuel : Nat) (shape : Shape) (s : String) (rest : List Char) :
    value? (fuel + 1) shape ((text s).chars ++ rest) = some (text s, rest) := by
  have hchars : (text s).chars ++ rest = '"' :: (Literal.escape s.toList ++ '"' :: rest) := by
    rw [text, chars, quoted, List.cons_append, List.append_assoc]
    rfl
  rw [hchars, value?, skipBlanks_quote]
  simp only [Literal.scan_escape, Option.map_some, text]

/-- **A string is read back**, whatever is expected. -/
theorem ReadsBack.text (shape : Shape) (s : String) : ReadsBack shape (text s) := by
  constructor
  · exact ⟨_, _, rfl, rfl, by decide⟩
  · intro fuel rest hfuel hrest
    cases fuel with
    | zero => cases hfuel
    | succ fuel => exact value?_text fuel shape s rest

/-! ### Arrays -/

section

variable {item : Json} (h : ReadsBack .any item) {fuel : Nat} (hfuel : item.chars.length ≤ fuel)

include h hfuel

/-- An item is read, and what ends it says whether it is the last one. -/
theorem items?_item (rest : List Char) (hrest : Ends rest) :
    items? (fuel + 1) [] (item.chars ++ rest) =
      match skipBlanks rest with
      | ',' :: rest => (items? fuel [] rest).map fun (items, rest) => (item :: items, rest)
      | ']' :: rest => some ([item], rest)
      | _ => none := by
  rw [items?, List.headD_nil, h.reads fuel rest hfuel hrest]
  rfl

/-- The last item is followed by the closing bracket. -/
theorem items?_last (rest : List Char) :
    items? (fuel + 1) [] (item.chars ++ ']' :: rest) = some ([item], rest) :=
  items?_item h hfuel (']' :: rest) (.inr (.inl rfl))

/-- Behind another item a comma is followed by the rest. -/
theorem items?_next (cs : List Char) :
    items? (fuel + 1) [] (item.chars ++ ',' :: cs) =
      (items? fuel [] cs).map fun (items, rest) => (item :: items, rest) :=
  items?_item h hfuel (',' :: cs) (.inl rfl)

end

section

variable {items : List Json} (hne : items ≠ []) (h : ∀ item ∈ items, ReadsBack .any item)

include hne h

/-- The items of an array are read up to its closing bracket. -/
theorem items?_itemChars (fuel : Nat) (hfuel : (itemChars items).length < fuel)
    (rest : List Char) : items? fuel [] (itemChars items ++ ']' :: rest) = some (items, rest) := by
  induction items generalizing fuel with
  | nil => exact absurd rfl hne
  | cons item items ih =>
    obtain ⟨hitem, hitems⟩ := List.forall_mem_cons.1 h
    cases fuel with
    | zero => cases hfuel
    | succ fuel =>
      cases items with
      | nil => exact items?_last hitem (Nat.le_of_lt_succ hfuel) rest
      | cons next items =>
        rw [itemChars, List.length_append, List.length_cons] at hfuel
        have hrest := ih (List.cons_ne_nil next items) hitems fuel (by omega)
        rw [itemChars, List.append_assoc, List.cons_append,
          items?_next hitem (by omega), hrest]
        rfl

/-- What is written for a list of items starts with an item. -/
theorem starts_itemChars : Starts (itemChars items) := by
  cases items with
  | nil => exact absurd rfl hne
  | cons item items =>
    have hitem := (h item List.mem_cons_self).starts
    cases items with
    | nil => exact hitem
    | cons next items => exact hitem.append _

end

/-- What starts with an item behind the opening bracket is read as items. -/
theorem value?_array {cs : List Char} (h : Starts cs) (fuel : Nat) :
    value? (fuel + 1) .any ('[' :: cs) =
      (items? fuel [] cs).map fun (items, rest) => (.array items, rest) := by
  have hskip := h.skipBlanks_eq
  obtain ⟨c, rest, rfl, -, hclose⟩ := h
  have hopen : skipBlanks ('[' :: c :: rest) = '[' :: c :: rest := rfl
  rw [value?, hopen]
  simp only [hskip]
  split
  case h_1 heq => cases heq
  case h_2 heq _ => exact absurd (List.cons.inj heq).1 hclose
  case h_3 => rfl

/-- **An array reads back if its items do.** -/
theorem ReadsBack.array {items : List Json} (h : ∀ item ∈ items, ReadsBack .any item) :
    ReadsBack .any (.array items) := by
  constructor
  · exact ⟨_, _, rfl, rfl, by decide⟩
  · intro fuel rest hfuel hrest
    rw [chars, List.length_cons, List.length_append, List.length_singleton] at hfuel
    rw [chars, List.cons_append, List.append_assoc, List.singleton_append]
    cases fuel with
    | zero => cases hfuel
    | succ fuel =>
      by_cases hne : items = []
      · subst hne
        rfl
      · have hitems := items?_itemChars hne h fuel (by omega) rest
        rw [value?_array ((starts_itemChars hne h).append _), hitems]
        rfl

/-! ### Objects -/

/-- A field reads back if its name is written like a string and its value reads back. -/
def FieldReadsBack (shape : Shape) (field : List Char × Json) : Prop :=
  (∃ cs, Literal.escape cs = field.1) ∧ ReadsBack (shape.field field.1) field.2

section

variable {shape : Shape} {name : List Char} {value : Json}
  (h : FieldReadsBack shape (name, value)) {fuel : Nat} (hfuel : value.chars.length ≤ fuel)

include h hfuel

/-- A field is read, and what ends it says whether it is the last one. -/
theorem fields?_field (rest : List Char) (hrest : Ends rest) :
    fields? (fuel + 1) shape (quoted name ++ ':' :: (value.chars ++ rest)) =
      match skipBlanks rest with
      | ',' :: rest =>
        (fields? fuel shape rest).map fun (fields, rest) => ((name, value) :: fields, rest)
      | '\x7d' :: rest => some ([(name, value)], rest)
      | _ => none := by
  obtain ⟨⟨cs, rfl⟩, hvalue⟩ := h
  have hscan := Literal.scan_escape cs (':' :: (value.chars ++ rest))
  have hcolon : skipBlanks (':' :: (value.chars ++ rest)) = ':' :: (value.chars ++ rest) := rfl
  rw [quoted, List.cons_append, List.append_assoc, List.singleton_append, fields?, skipBlanks_quote]
  simp only [hscan, Option.bind_some, hcolon]
  rw [hvalue.reads fuel rest hfuel hrest]
  rfl

/-- The last field is followed by the closing brace. -/
theorem fields?_last (rest : List Char) :
    fields? (fuel + 1) shape (quoted name ++ ':' :: (value.chars ++ '\x7d' :: rest)) =
      some ([(name, value)], rest) :=
  fields?_field h hfuel ('\x7d' :: rest) (.inr (.inr rfl))

/-- Behind another field a comma is followed by the rest. -/
theorem fields?_next (cs : List Char) :
    fields? (fuel + 1) shape (quoted name ++ ':' :: (value.chars ++ ',' :: cs)) =
      (fields? fuel shape cs).map fun (fields, rest) => ((name, value) :: fields, rest) :=
  fields?_field h hfuel (',' :: cs) (.inl rfl)

end

/-- The fields of an object are read up to its closing brace. -/
theorem fields?_fieldChars {shape : Shape} {fields : List (List Char × Json)} (hne : fields ≠ [])
    (h : ∀ field ∈ fields, FieldReadsBack shape field) (fuel : Nat)
    (hfuel : (fieldChars fields).length < fuel) (rest : List Char) :
    fields? fuel shape (fieldChars fields ++ '\x7d' :: rest) = some (fields, rest) := by
  induction fields generalizing fuel with
  | nil => exact absurd rfl hne
  | cons field fields ih =>
    obtain ⟨name, value⟩ := field
    obtain ⟨hfield, hfields⟩ := List.forall_mem_cons.1 h
    cases fuel with
    | zero => cases hfuel
    | succ fuel =>
      cases fields with
      | nil =>
        rw [fieldChars, List.length_append, List.length_cons] at hfuel
        rw [fieldChars, List.append_assoc, List.cons_append]
        exact fields?_last hfield (by omega) rest
      | cons next fields =>
        rw [fieldChars, List.length_append, List.length_cons, List.length_append,
          List.length_cons] at hfuel
        have hrest := ih (List.cons_ne_nil next fields) hfields fuel (by omega)
        rw [fieldChars, List.append_assoc, List.cons_append, List.append_assoc, List.cons_append,
          fields?_next hfield (by omega), hrest]
        rfl

/-- What is written for fields starts with the quoted name of the first one. -/
theorem exists_fieldChars_eq_cons (field : List Char × Json) (fields : List (List Char × Json)) :
    ∃ cs, fieldChars (field :: fields) = '"' :: cs := by
  obtain ⟨name, value⟩ := field
  cases fields with
  | nil => exact ⟨_, rfl⟩
  | cons next fields => exact ⟨_, rfl⟩

/-- What starts with a quote behind the opening brace is read as fields. -/
theorem value?_object (fuel : Nat) (shape : Shape) (cs : List Char) :
    value? (fuel + 1) shape ('\x7b' :: '"' :: cs) =
      (fields? fuel shape ('"' :: cs)).map fun (fields, rest) => (.object fields, rest) := by
  have hopen : skipBlanks ('\x7b' :: '"' :: cs) = '\x7b' :: '"' :: cs := rfl
  rw [value?, hopen]
  simp only [skipBlanks_quote]
  rfl

/-- **An object reads back if its fields do.** -/
theorem ReadsBack.object {shape : Shape} {fields : List (List Char × Json)}
    (h : ∀ field ∈ fields, FieldReadsBack shape field) : ReadsBack shape (.object fields) := by
  constructor
  · exact ⟨_, _, rfl, rfl, by decide⟩
  · intro fuel rest hfuel hrest
    rw [chars, List.length_cons, List.length_append, List.length_singleton] at hfuel
    rw [chars, List.cons_append, List.append_assoc, List.singleton_append]
    cases fuel with
    | zero => cases hfuel
    | succ fuel =>
      cases fields with
      | nil => rfl
      | cons field fields =>
        have hread := fields?_fieldChars (List.cons_ne_nil field fields) h fuel (by omega) rest
        obtain ⟨cs, hcs⟩ := exists_fieldChars_eq_cons field fields
        rw [hcs, List.cons_append] at hread ⊢
        rw [value?_object, hread]
        rfl

/-! ### Records -/

/-- The shape of the part of a record with a name. -/
def Shape.part (shape : Shape) (name : String) : Shape := shape.field (Literal.escape name.toList)

/-- What is expected of a part of a record is what was said for its name, or anything. -/
theorem Shape.part_record (parts : List (String × Shape)) (name : String) :
    (record parts).part name = (parts.lookup name).getD any := by
  rw [part, field, Literal.decode?_escape, Option.bind_some, String.ofList_toList]

/-- **A record reads back if its parts do.** -/
theorem ReadsBack.record {shape : Shape} {fields : List (String × Json)}
    (h : fields.Forall fun field => ReadsBack (shape.part field.1) field.2) :
    ReadsBack shape (record fields) := by
  refine .object fun field hmem => ?_
  obtain ⟨part, hpart, rfl⟩ := List.mem_map.1 hmem
  exact ⟨⟨_, rfl⟩, List.forall_iff_forall_mem.1 h part hpart⟩

/-! ### Texts -/

/-- **The text of a value that reads back denotes the value.** -/
theorem read?_toText {shape : Shape} {j : Json} (h : ReadsBack shape j) :
    read? shape j.toText = some j := by
  have hread := h.reads (2 * j.chars.length + 2) [] (by omega) trivial
  rw [List.append_nil] at hread
  rw [read?, toText, String.toList_ofList, hread]
  rfl

end Json

end RangeLedger
