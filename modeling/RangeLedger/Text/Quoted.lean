import RangeLedger.Text.Hex
import RangeLedger.Text.Printable

/-!
# Quoted text

An error message quotes the text it complains of between double quotes, in a form that shows every
character: a double quote and a backslash are written behind a backslash, the usual control
characters by their letter, and any other character without a glyph of its own by its code point
in braces.
-/

namespace RangeLedger.Text

/-- The lower-case hexadecimal digits of a number, without a superfluous leading zero. -/
def codePointDigits (c : Char) : List Char := Nat.toDigits 16 c.toNat

/-- One character as it stands between the quotes. -/
def quoteChar (c : Char) : List Char :=
  match c with
  | '\x00' => ['\\', '0']
  | '\t' => ['\\', 't']
  | '\r' => ['\\', 'r']
  | '\n' => ['\\', 'n']
  | '\\' => ['\\', '\\']
  | '"' => ['\\', '"']
  | c => if isPrintable c then [c] else ['\\', 'u', '\x7b'] ++ codePointDigits c ++ ['\x7d']

/-- A text between double quotes. -/
def quote (s : String) : String :=
  String.ofList ('"' :: s.toList.flatMap quoteChar ++ ['"'])

end RangeLedger.Text
