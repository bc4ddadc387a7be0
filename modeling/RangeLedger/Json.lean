/-!
# JSON values

A JSON value as it is written, as far as a reader of values can tell: whole numbers are integers,
other numbers keep their characters, strings and the names of fields keep the characters between
their quotes, and the fields of an object keep their order and their repetitions.
-/

namespace RangeLedger

/-- A JSON value. -/
inductive Json where
  | null
  | bool (value : Bool)
  | int (value : Int)
  /-- A number with a fraction or an exponent, or minus zero, as it is written. -/
  | real (written : List Char)
  /-- The characters between the quotes, escapes included. -/
  | string (literal : List Char)
  | array (items : List Json)
  | object (fields : List (List Char × Json))

instance : Inhabited Json := ⟨.null⟩

end RangeLedger
