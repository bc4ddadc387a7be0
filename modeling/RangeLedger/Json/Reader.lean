import RangeLedger.Json.Bytes
import RangeLedger.Json.Shape

/-!
# Reading JSON

The reader is strict: there are no comments, no commas too many, and nothing may follow the value
but blanks. Only arrays of a known number of bytes are an exception. The reader does not look into
the strings beyond their escapes, so that half of a surrogate pair is only found out by whoever
wants to know the characters.
-/

namespace RangeLedger.Json

mutual

/-- A value of a shape, and what follows it. The first argument bounds the steps. -/
def value? : Nat → Shape → List Char → Option (Json × List Char)
  | 0, _, _ => none
  | fuel + 1, shape, cs =>
    match skipBlanks cs with
    | 'n' :: 'u' :: 'l' :: 'l' :: rest => some (.null, rest)
    | 't' :: 'r' :: 'u' :: 'e' :: rest => some (.bool true, rest)
    | 'f' :: 'a' :: 'l' :: 's' :: 'e' :: rest => some (.bool false, rest)
    | '"' :: rest => (Literal.scan rest).map fun (literal, rest) => (.string literal, rest)
    | '[' :: rest =>
      match shape, skipBlanks rest with
      | .bytes count, rest =>
        (Bytes.items? count rest).map fun (items, rest) => (.array items, rest)
      | _, ']' :: rest => some (.array [], rest)
      | shape, rest =>
        (items? fuel shape.items rest).map fun (items, rest) => (.array items, rest)
    | '\x7b' :: rest =>
      match skipBlanks rest with
      | '\x7d' :: rest => some (.object [], rest)
      | rest => (fields? fuel shape rest).map fun (fields, rest) => (.object fields, rest)
    | rest => number? rest

/-- The items, of the given shapes as far as they go, of an array that is not empty, and what follows
its closing bracket. -/
def items? : Nat → List Shape → List Char → Option (List Json × List Char)
  | 0, _, _ => none
  | fuel + 1, shapes, cs =>
    (value? fuel (shapes.headD .any) cs).bind fun (item, rest) =>
      match skipBlanks rest with
      | ',' :: rest =>
        (items? fuel shapes.tail rest).map fun (items, rest) => (item :: items, rest)
      | ']' :: rest => some ([item], rest)
      | _ => none

/-- The fields of an object of a shape that is not empty, and what follows its closing brace. -/
def fields? : Nat → Shape → List Char → Option (List (List Char × Json) × List Char)
  | 0, _, _ => none
  | fuel + 1, shape, cs =>
    match skipBlanks cs with
    | '"' :: rest =>
      (Literal.scan rest).bind fun (name, rest) =>
        match skipBlanks rest with
        | ':' :: rest =>
          (value? fuel (shape.field name) rest).bind fun (value, rest) =>
            match skipBlanks rest with
            | ',' :: rest =>
              (fields? fuel shape rest).map fun (fields, rest) => ((name, value) :: fields, rest)
            | '\x7d' :: rest => some ([(name, value)], rest)
            | _ => none
        | _ => none
    | _ => none

end

/-- The value of a shape that a text denotes. Of two steps in a row one passes a character, so the
bound on the steps is never reached. -/
def read? (shape : Shape) (s : String) : Option Json :=
  match value? (2 * s.toList.length + 2) shape s.toList with
  | some (j, rest) => if (skipBlanks rest).isEmpty then some j else none
  | none => none

end RangeLedger.Json
