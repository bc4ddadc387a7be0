import RangeLedger.Json.Literal

/-!
# Shapes of JSON values

A shape says what is expected of a value, as far as it bears on how the value is read: where a
known number of bytes is expected, an array may hold one item more than it should.
-/

namespace RangeLedger.Json

/-- What is expected of a value. -/
inductive Shape where
  /-- Anything. -/
  | any
  /-- The given number of bytes, if they are written as an array. -/
  | bytes (count : Nat)
  /-- A record with parts of the given names and shapes. -/
  | record (parts : List (String × Shape))

namespace Shape

/-- The shape of the field whose name has the given literal. -/
def field : Shape → List Char → Shape
  | record parts, name =>
    ((Literal.decode? name).bind fun cs => parts.lookup (String.ofList cs)).getD any
  | _, _ => any

/-- The shapes of the items of an array, as far as they are known. -/
def items : Shape → List Shape
  | record parts => parts.map Prod.snd
  | _ => []

end Shape

end RangeLedger.Json
