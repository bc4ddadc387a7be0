import RangeLedger.Json
import RangeLedger.Text.Digits

/-!
# Tokens of JSON

Blanks are spaces, tabs, line feeds and carriage returns. A number has no superfluous leading zero,
and a digit at least behind its point and behind its exponent mark.
-/

namespace RangeLedger.Json

/-- Whether a character may stand between tokens. -/
def isBlank (c : Char) : Bool := c == ' ' || c == '\t' || c == '\n' || c == '\r'

/-- What follows the blanks. -/
def skipBlanks (cs : List Char) : List Char := cs.dropWhile isBlank

/-! ### Numbers -/

/-- One or more digits, and what follows them. -/
def digits? (cs : List Char) : Option (List Char × List Char) :=
  let digits := cs.takeWhile Char.isDigit
  if digits.isEmpty then none else some (digits, cs.dropWhile Char.isDigit)

/-- The fraction of a number, empty if there is none, and what follows it. -/
def fraction? : List Char → Option (List Char × List Char)
  | '.' :: rest => (digits? rest).map fun (digits, rest) => ('.' :: digits, rest)
  | rest => some ([], rest)

/-- A sign, if there is one, and what follows it. -/
def sign : List Char → List Char × List Char
  | '+' :: rest => (['+'], rest)
  | '-' :: rest => (['-'], rest)
  | rest => ([], rest)

/-- The exponent of a number, empty if there is none, and what follows it. -/
def exponent? : List Char → Option (List Char × List Char)
  | [] => some ([], [])
  | c :: rest =>
    if c = 'e' ∨ c = 'E' then
      (digits? (sign rest).2).map fun (digits, after) => (c :: ((sign rest).1 ++ digits), after)
    else some ([], c :: rest)

/-- The number with the given integer part, fraction and exponent. -/
def ofNumeral (negative : Bool) (integer fraction exponent : List Char) : Json :=
  let value : Int := Digits.value integer
  if fraction.isEmpty ∧ exponent.isEmpty ∧ ¬(negative ∧ value = 0) then
    .int (if negative then -value else value)
  else .real ((if negative then ['-'] else []) ++ integer ++ fraction ++ exponent)

/-- A number without its minus sign, and what follows it. The integer part has no superfluous
leading zero. -/
def unsigned? (negative : Bool) (cs : List Char) : Option (Json × List Char) := do
  let (integer, rest) ← digits? cs
  if integer.head? = some '0' ∧ integer.length ≠ 1 then none
  let (fraction, rest) ← fraction? rest
  let (exponent, rest) ← exponent? rest
  return (ofNumeral negative integer fraction exponent, rest)

/-- A number, and what follows it. -/
def number? : List Char → Option (Json × List Char)
  | '-' :: rest => unsigned? true rest
  | rest => unsigned? false rest

end RangeLedger.Json
