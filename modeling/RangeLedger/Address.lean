import RangeLedger.Address.Keccak
import RangeLedger.Basic
import RangeLedger.Text.Hex

/-!
# Addresses

An account is named by an address of twenty bytes, written as `0x` and forty hexadecimal digits.
The plain form uses lower-case letters; the checksum form capitalises a letter where the digit at
its place in the Keccak-256 digest of the plain digits is eight or more.

## Main results

* `ofText?_toText`: the plain form reads back as the address.
-/

namespace RangeLedger

/-- An address: twenty bytes, as a number with the first byte on top. -/
abbrev Address := Bounded 0 0xFFFF_FFFF_FFFF_FFFF_FFFF_FFFF_FFFF_FFFF_FFFF_FFFF

namespace Address

/-- The forty lower-case digits. -/
def digits (a : Address) : List Char := Hex.ofNat 40 a.toNat

/-- The plain written form. -/
def toText (a : Address) : String := String.ofList ('0' :: 'x' :: a.digits)

/-- The digits of the digest of a text of ASCII characters. -/
def digestDigits (cs : List Char) : List Nat :=
  (Keccak.digest (cs.map fun c => c.toUInt8)).flatMap fun b => [b.toNat / 16, b.toNat % 16]

/-- The written form whose capitals are a checksum of the digits. -/
def toChecksumText (a : Address) : String :=
  String.ofList ('0' :: 'x' ::
    List.zipWith (fun c h => if 8 ≤ h then c.toUpper else c) a.digits (digestDigits a.digits))

/-- The address that forty digits denote, in either case and with or without `0x` or `0X` in
front. -/
def ofChars? (cs : List Char) : Option Address :=
  let ds := match cs with
    | '0' :: 'x' :: rest => rest
    | '0' :: 'X' :: rest => rest
    | _ => cs
  if ds.length = 40 then (Hex.value? ds).bind fun n => Bounded.ofInt? n else none

/-- The address that a text denotes. -/
def ofText? (s : String) : Option Address := ofChars? s.toList

/-- The address of twenty bytes. -/
def ofBytes? (bytes : List UInt8) : Option Address :=
  if bytes.length = 20 then
    Bounded.ofInt? (bytes.foldl (fun (n : Nat) b => 256 * n + b.toNat) 0 : Nat)
  else none

/-- The address named by the last twenty bytes of the digest of a message. -/
def ofDigest (message : List UInt8) : Address :=
  Bounded.clamp (by decide)
    (((Keccak.digest message).drop 12).foldl (fun (n : Nat) b => 256 * n + b.toNat) 0 : Nat)

/-- An address is read back from its text. -/
@[simp] theorem ofText?_toText (a : Address) : ofText? a.toText = some a := by
  have hlt : a.toNat < Nat.pow 16 40 := by
    have := a.le_hi
    have := a.lo_le
    have hpow : Nat.pow 16 40 = 0x1_0000_0000_0000_0000_0000_0000_0000_0000_0000_0000 := rfl
    rw [hpow]
    unfold Bounded.toNat
    omega
  have hval : ((a.toNat : Nat) : Int) = a.val := Int.toNat_of_nonneg a.lo_le
  have hread : Hex.value? a.digits = some a.toNat := by
    rw [digits, Hex.value?_ofNat, Nat.mod_eq_of_lt hlt]
  have hlen : a.digits.length = 40 := Hex.length_ofNat 40 a.toNat
  simp only [ofText?, toText, ofChars?, String.toList_ofList]
  rw [if_pos hlen, hread, Option.bind_some, hval, Bounded.ofInt?_val]

end Address

end RangeLedger
