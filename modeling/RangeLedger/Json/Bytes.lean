import RangeLedger.Json.Literal
import RangeLedger.Json.Token

/-!
# Arrays of bytes

An array that stands for a known number of bytes is complete with its last byte. In front of its
closing bracket there may still be a comma, and behind the comma one more item, if that is neither a
byte nor an array nor an object. Such an item is passed over without being read, up to the place
where it ends or where it stops being an item: the character that breaks a word, a string or an
exponent is passed over with it, while a number may end right behind its point, and a digit behind
a leading zero, or behind an exponent that is out of bounds already, is left. Text is passed over by
the byte, so that no bracket follows an item that ends within a character.
-/

namespace RangeLedger.Json.Bytes

/-! ### Passing over an item -/

/-- What follows a number of bytes; `none` if they end within a character or behind the text. -/
def drop? : Nat → List Char → Option (List Char)
  | 0, cs => some cs
  | _ + 1, [] => none
  | n + 1, c :: cs => if c.utf8Size ≤ n + 1 then drop? (n + 1 - c.utf8Size) cs else none

/-- What follows a word with the given letters, or the first character that is none of them. -/
def passWord? : (letters cs : List Char) → Option (List Char)
  | [], cs => some cs
  | _ :: _, [] => none
  | letter :: letters, c :: cs =>
    if c = letter then passWord? letters cs else drop? 1 (c :: cs)

/-- Whether a unit is the first half of a surrogate pair. -/
def isLeading (unit : Nat) : Bool := 0xD800 ≤ unit ∧ unit < 0xDC00

/-- Whether a unit is the second half of a surrogate pair. -/
def isTrailing (unit : Nat) : Bool := 0xDC00 ≤ unit ∧ unit < 0xE000

/-- What follows the closing quote of a string, or the character or unit that is out of place in
it: a control character, an unknown escape, or half of a surrogate pair without the other half. The
flag says whether the first half of a pair has just been passed. -/
def passString? (half : Bool) : List Char → Option (List Char)
  | [] => none
  | '"' :: rest => some rest
  | '\\' :: 'u' :: a :: b :: c :: d :: rest =>
    match Hex.value? [a, b, c, d] with
    | some unit =>
      if isTrailing unit = half then passString? (isLeading unit) rest else some rest
    | none => drop? 4 (a :: b :: c :: d :: rest)
  | '\\' :: 'u' :: rest => drop? 4 rest
  | '\\' :: c :: rest =>
    if ¬half ∧ (Literal.short? c).isSome then passString? false rest else drop? 1 (c :: rest)
  | c :: rest =>
    if half ∨ c < ' ' ∨ c = '\\' then drop? 1 (c :: rest) else passString? false rest

/-- What follows the exponent of a number, if there is one; `none` if the exponent puts a number
other than zero out of bounds before its last digit. -/
def passExponent? (zero : Bool) : List Char → Option (List Char)
  | [] => some []
  | c :: rest =>
    if c = 'e' ∨ c = 'E' then
      let unsigned := (sign rest).2
      let digits := unsigned.takeWhile Char.isDigit
      if digits.isEmpty then drop? 1 unsigned
      else if zero ∨ (sign rest).1 = ['-'] ∨ Digits.value digits.dropLast < 0x8000_0000 then
        some (unsigned.drop digits.length)
      else none
    else some (c :: rest)

/-- The integer part in front of a text: a single zero, or as many digits as there are. -/
def integerPart : List Char → List Char
  | '0' :: _ => ['0']
  | cs => cs.takeWhile Char.isDigit

/-- What follows a number without its minus sign. -/
def passNumber? (cs : List Char) : Option (List Char) :=
  let integer := integerPart cs
  if integer.isEmpty then drop? 1 cs
  else
    match cs.drop integer.length with
    | '.' :: rest =>
      let places := rest.takeWhile Char.isDigit
      if places.isEmpty then some rest
      else passExponent? ((integer ++ places).all (· == '0')) (rest.drop places.length)
    | rest => passExponent? (integer == ['0']) rest

/-- Whether a text starts with a byte. -/
def startsWithByte (cs : List Char) : Bool :=
  match number? cs with
  | some (.int n, _) => 0 ≤ n ∧ n < 256
  | _ => false

/-- What follows an item; `none` if it is a byte, an array, an object or no item at all. -/
def passItem? : List Char → Option (List Char)
  | 'n' :: rest => passWord? ['u', 'l', 'l'] rest
  | 't' :: rest => passWord? ['r', 'u', 'e'] rest
  | 'f' :: rest => passWord? ['a', 'l', 's', 'e'] rest
  | '"' :: rest => passString? false rest
  | '-' :: rest => passNumber? rest
  | cs =>
    if (cs.head?.any Char.isDigit) ∧ ¬startsWithByte cs then passNumber? cs else none

/-! ### Reading the array -/

/-- What follows the closing bracket. -/
def close? (cs : List Char) : Option (List Char) :=
  match skipBlanks cs with
  | ']' :: rest => some rest
  | _ => none

/-- What follows the closing bracket, with a comma or a comma and an item passed over. -/
def finish? (cs : List Char) : Option (List Char) :=
  match skipBlanks cs with
  | ',' :: rest =>
    match skipBlanks rest with
    | ']' :: rest => some rest
    | rest => (passItem? rest).bind close?
  | rest => close? rest

/-- What follows an item that is the last one or has a comma behind it. -/
def separate? (last : Bool) (cs : List Char) : Option (List Char) :=
  if last then some cs
  else
    match skipBlanks cs with
    | ',' :: rest => some rest
    | _ => none

/-- The given number of numbers with commas between them, and what follows the closing bracket
behind them. -/
def items? : Nat → List Char → Option (List Json × List Char)
  | 0, cs => (finish? cs).map fun rest => ([], rest)
  | count + 1, cs => do
    let (item, rest) ← number? (skipBlanks cs)
    let rest ← separate? (count = 0) rest
    let (items, rest) ← items? count rest
    return (item :: items, rest)

end RangeLedger.Json.Bytes
