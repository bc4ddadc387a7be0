import RangeLedger.Basic
import RangeLedger.Json.Printer
import RangeLedger.Json.Reader
import RangeLedger.Json.Record
import RangeLedger.Table.Map

/-!
# JSON forms of values

A codec says how the values of a type are written in JSON and how they are read. Writing is total;
reading accepts whatever denotes a value. A codec is lawful if every written value reads back.

## Main results

* `bounded_lawful`, `flag_lawful`, `ofText_lawful`, `items_lawful`: the codecs of single values and
  of lists are lawful.
* `set_lawful`, `idMap_lawful`: so are those of ordered sets, and of maps by number.
-/

namespace RangeLedger

/-- A JSON form of a type. -/
structure Codec (α : Type) where
  /-- The JSON value of a value. -/
  encode : α → Json
  /-- The value that a JSON value denotes. -/
  decode? : Json → Option α
  /-- What a reader should expect of the JSON values. -/
  shape : Json.Shape := .any

namespace Codec

variable {α : Type}

/-- Every written value reads back. -/
def Lawful (c : Codec α) : Prop := ∀ a, c.decode? (c.encode a) = some a

/-- The value that a text denotes. -/
def read? (c : Codec α) (s : String) : Option α := (Json.read? c.shape s).bind c.decode?

/-- The text of a value. -/
def write (c : Codec α) (a : α) : String := (c.encode a).toText

/-! ### Single values -/

/-- Integers in an interval, as numbers. -/
def bounded {lo hi : Int} : Codec (Bounded lo hi) where
  encode n := .int n.val
  decode?
    | .int n => Bounded.ofInt? n
    | _ => none

/-- Truth values. -/
def flag : Codec Bool where
  encode := .bool
  decode?
    | .bool b => some b
    | _ => none

/-- The characters of a string. -/
def stringOf? : Json → Option String
  | .string literal => (Literal.decode? literal).map String.ofList
  | _ => none

/-- Strings. -/
def text : Codec String where
  encode := Json.text
  decode? := stringOf?

/-- Values that are written as strings. -/
def ofText (toText : α → String) (ofText? : String → Option α) : Codec α where
  encode a := Json.text (toText a)
  decode? j := (stringOf? j).bind ofText?

/-! ### Collections -/

/-- Lists, as arrays. -/
def items (c : Codec α) : Codec (List α) where
  encode as := .array (as.map c.encode)
  decode?
    | .array js => js.mapM c.decode?
    | _ => none

/-- Ordered sets, as arrays; they are read from arrays in any order and with repetitions. -/
def set {κ : Type} [Ord κ] [Std.TransOrd κ] [Std.LawfulEqOrd κ] (c : Codec κ) :
    Codec (OrderedSet κ) where
  encode s := (items c).encode s.toList
  decode? j := ((items c).decode? j).map Table.ofList

/-- The name of the field for a number: its decimal digits. -/
def idName (id : Word64) : List Char := Digits.ofNat id.toNat

/-- The number whose field has a name. -/
def id? (name : List Char) : Option Word64 :=
  if Digits.allDigits name ∧ Digits.ofNat (Digits.value name) = name then
    Bounded.ofInt? (Digits.value name)
  else none

/-- The field for an entry of a map by number. -/
def idField (c : Codec α) (entry : Word64 × α) : List Char × Json :=
  (idName entry.1, c.encode entry.2)

/-- The entry whose field is given. -/
def idPair? (c : Codec α) (field : List Char × Json) : Option (Word64 × α) := do
  return (← id? field.1, ← c.decode? field.2)

/-- Maps by number, as objects; of two fields with one name the later one counts. -/
def idMap (c : Codec α) : Codec (Map Word64 α) where
  encode m := .object (m.toList.map (idField c))
  decode?
    | .object fields => (fields.mapM (idPair? c)).map Map.ofList
    | _ => none

/-! ### Laws -/

/-- A bounded integer is read back from its number. -/
theorem bounded_lawful {lo hi : Int} : (bounded : Codec (Bounded lo hi)).Lawful := fun n =>
  Bounded.ofInt?_val n

/-- A truth value is read back. -/
theorem flag_lawful : flag.Lawful := fun _ => rfl

/-- A string is read back from the text that quotes it. -/
@[simp] theorem stringOf?_text (s : String) : stringOf? (Json.text s) = some s := by
  simp [stringOf?, Json.text]

/-- A codec by texts is lawful if every value is read back from its text. -/
theorem ofText_lawful {toText : α → String} {ofText? : String → Option α}
    (h : ∀ a, ofText? (toText a) = some a) : (ofText toText ofText?).Lawful := fun a => by
  simp [ofText, h]

/-- **Lists are read back** if their items are. -/
theorem items_lawful {c : Codec α} (h : c.Lawful) : (items c).Lawful := by
  intro as
  change (as.map c.encode).mapM c.decode? = some as
  induction as with
  | nil => rfl
  | cons a as ih =>
    simp only [List.map_cons, List.mapM_cons, h a, ih]
    rfl

/-- **Ordered sets are read back** if their members are: the members are written in order. -/
theorem set_lawful {κ : Type} [Ord κ] [Std.TransOrd κ] [Std.LawfulEqOrd κ] {c : Codec κ}
    (h : c.Lawful) : (set c).Lawful := fun s => by
  change ((items c).decode? ((items c).encode s.toList)).map Table.ofList = some s
  rw [items_lawful h]
  simp

/-- A number is read back from the name of its field. -/
@[simp] theorem id?_idName (id : Word64) : id? (idName id) = some id := by
  have hval : ((id.toNat : Nat) : Int) = id.val := Int.toNat_of_nonneg id.lo_le
  simp [id?, idName, hval]

/-- A pair of a number and a value is read back from its field. -/
theorem idPair?_idField {c : Codec α} (h : c.Lawful) (entry : Word64 × α) :
    idPair? c (idField c entry) = some entry := by
  simp [idPair?, idField, h entry.2]

/-- **Maps by number are read back** if their values are: the entries are written in order. -/
theorem idMap_lawful {c : Codec α} (h : c.Lawful) : (idMap c).Lawful := fun m => by
  have key (entries : List (Word64 × α)) :
      (entries.map (idField c)).mapM (idPair? c) = some entries := by
    induction entries with
    | nil => rfl
    | cons entry entries ih =>
      simp only [List.map_cons, List.mapM_cons, idPair?_idField h, ih]
      rfl
  change ((m.toList.map (idField c)).mapM (idPair? c)).map Map.ofList = some m
  rw [key]
  simp

end Codec

end RangeLedger
