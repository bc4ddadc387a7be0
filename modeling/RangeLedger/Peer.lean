import RangeLedger.Text.Digits
import RangeLedger.Text.Hex

/-!
# Peers

Operations are counted by the network address that asked for them. An address of four bytes is
written with dots. An address of eight groups of sixteen bits is written in lower-case hexadecimal
digits with colons, and its longest run of two or more zero groups, the first of equal ones, is
left out; one that carries an address of four bytes is written with that address at its end.
-/

namespace RangeLedger

/-- The network address of a peer. -/
inductive Peer where
  | v4 (bytes : Vector UInt8 4)
  | v6 (groups : Vector UInt16 8)
deriving DecidableEq

namespace Peer

/-- Four bytes with dots between them. -/
def dotted (bytes : List Nat) : String := ".".intercalate (bytes.map toString)

/-- The hexadecimal digits of a group, without a superfluous leading zero. -/
def group (n : Nat) : String := String.ofList (Nat.toDigits 16 n)

/-- Groups with colons between them. -/
def colons (groups : List Nat) : String := ":".intercalate (groups.map group)

/-- The number of zeros in front of a list. -/
def leadingZeros (groups : List Nat) : Nat := (groups.takeWhile (· == 0)).length

/-- Where the longest run of zeros starts, and its length; of equal runs the first. -/
def longestRun (groups : List Nat) : Nat × Nat :=
  (List.range groups.length).foldl
    (fun best i =>
      let n := leadingZeros (groups.drop i)
      if best.2 < n then (i, n) else best)
    (0, 0)

/-- Eight groups, the longest run of zeros left out. -/
def compressed (groups : List Nat) : String :=
  let (start, length) := longestRun groups
  if length < 2 then colons groups
  else colons (groups.take start) ++ "::" ++ colons (groups.drop (start + length))

/-- The written form of the address. -/
def toText : Peer → String
  | v4 bytes => dotted (bytes.toList.map UInt8.toNat)
  | v6 groups =>
    match groups.toList.map UInt16.toNat with
    | [0, 0, 0, 0, 0, 65535, high, low] =>
      "::ffff:" ++ dotted [high / 256, high % 256, low / 256, low % 256]
    | gs => compressed gs

/-- The label of operations that were asked for by a peer, if it is known. -/
def source : Option Peer → String
  | some peer => peer.toText
  | none => "IP_UNKNOWN"

end Peer

end RangeLedger
