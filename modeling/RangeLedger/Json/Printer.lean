import RangeLedger.Json
import RangeLedger.Text.Digits

/-!
# Writing JSON

A value is written without blanks.
-/

namespace RangeLedger.Json

/-- The decimal digits of an integer, a minus sign in front of a negative one. -/
def intChars (n : Int) : List Char :=
  (if n < 0 then ['-'] else []) ++ Digits.ofNat n.natAbs

/-- A literal between quotes. -/
def quoted (literal : List Char) : List Char := '"' :: (literal ++ ['"'])

mutual

/-- The characters of a value. -/
def chars : Json → List Char
  | null => "null".toList
  | bool true => "true".toList
  | bool false => "false".toList
  | int value => intChars value
  | real written => written
  | string literal => quoted literal
  | array items => '[' :: (itemChars items ++ [']'])
  | object fields => '\x7b' :: (fieldChars fields ++ ['\x7d'])

/-- The characters of the items of an array, with commas between them. -/
def itemChars : List Json → List Char
  | [] => []
  | [item] => item.chars
  | item :: next :: rest => item.chars ++ ',' :: itemChars (next :: rest)

/-- The characters of the fields of an object, with commas between them. -/
def fieldChars : List (List Char × Json) → List Char
  | [] => []
  | [(name, value)] => quoted name ++ ':' :: value.chars
  | (name, value) :: next :: rest =>
    quoted name ++ ':' :: (value.chars ++ ',' :: fieldChars (next :: rest))

end

/-- The written form of a value. -/
def toText (j : Json) : String := String.ofList j.chars

end RangeLedger.Json
