import RangeLedger.Number.Rounding
import RangeLedger.Text.Digits

/-!
# Binary floating-point numbers

A binary64 number is a pattern of 64 bits: a sign, eleven bits of exponent and 52 bits of fraction.
This module reads the exact value of a pattern, writes it with a fixed number of places, and finds
the pattern that is nearest to a quotient.
-/

namespace RangeLedger.Binary64

/-- What a pattern of bits stands for. -/
inductive Value where
  | nan
  | infinite (negative : Bool)
  /-- The number `significand * 2 ^ exponent`, or its negative. -/
  | finite (negative : Bool) (significand : Nat) (exponent : Int)
deriving DecidableEq

/-- The value of a pattern of 64 bits. -/
def decode (bits : Nat) : Value :=
  let negative := bits / 0x8000_0000_0000_0000 % 2 == 1
  let exponent : Nat := bits / 0x10_0000_0000_0000 % 0x800
  let fraction := bits % 0x10_0000_0000_0000
  if exponent = 2047 then
    if fraction = 0 then .infinite negative else .nan
  else if exponent = 0 then .finite negative fraction (-1074)
  else .finite negative (0x10_0000_0000_0000 + fraction) ((exponent : Int) - 1075)

/-- The quotient `n / (d * 2 ^ e)`, rounded. -/
def scaledQuotient (mode : Rounding) (n d : Nat) (e : Int) : Nat :=
  mode.quotient (n <<< (-e).toNat) (d <<< e.toNat)

/-- The written form with a fixed number of places: the exact value, rounded to the nearest
decimal, a tie to the even one. The sign stays when the digits are all zero. -/
def Value.fixed (places : Nat) : Value → List Char
  | nan => "NaN".toList
  | infinite negative => (if negative then ['-'] else []) ++ "inf".toList
  | finite negative significand exponent =>
    let scaled := scaledQuotient .halfEven (significand * Nat.pow 10 places) 1 (-exponent)
    (if negative then ['-'] else []) ++ Digits.ofNat (scaled / Nat.pow 10 places) ++
      '.' :: Digits.padded places (scaled % Nat.pow 10 places)

/-- The greatest `e` such that `2 ^ e ≤ n / d`, for positive numbers. -/
def floorLog2 (n d : Nat) : Int :=
  let e : Int := (Nat.log2 n : Int) - Nat.log2 d
  if d <<< e.toNat ≤ n <<< (-e).toNat then e else e - 1

/-- The pattern of the number nearest to `n / d`, a tie going to the even significand. A quotient
beyond the largest number gives infinity. -/
def nearestBits (n d : Nat) : Nat :=
  if n = 0 then 0
  else
    let unit := max (floorLog2 n d) (-1022) - 52
    min ((unit + 1074).toNat * 0x10_0000_0000_0000 + scaledQuotient .halfEven n d unit)
      (2047 * 0x10_0000_0000_0000)

end RangeLedger.Binary64
