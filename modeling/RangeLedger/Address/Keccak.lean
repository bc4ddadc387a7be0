/-!
# Keccak-256

The sponge hash with 1088 absorbed bits a block and 256 bits of digest, in its first published
padding: the message is followed by a byte `0x01`, zeros, and the bit `0x80` in the last byte of
the block. The state has 25 lanes of 64 bits; the lane at column `x` and row `y` is number
`5 * y + x`.
-/

namespace RangeLedger.Keccak

/-- The state of the sponge. -/
abbrev State := Vector UInt64 25

/-- The lane at column `x` and row `y`, both modulo five. -/
def lane (s : State) (x y : Nat) : UInt64 := s.get ⟨5 * (y % 5) + x % 5, by omega⟩

/-- The state with the given lane at each column and row. -/
def ofLanes (f : (x y : Nat) → UInt64) : State := Vector.ofFn fun i => f (i.val % 5) (i.val / 5)

/-- Rotation toward the high end by less than 64 bits. -/
def rotate (w : UInt64) (n : Nat) : UInt64 :=
  if n = 0 then w else (w <<< n.toUInt64) ||| (w >>> (64 - n).toUInt64)

/-- How far each lane is rotated, by lane number. -/
def rotations : List Nat :=
  [0, 1, 62, 28, 27, 36, 44, 6, 55, 20, 3, 10, 43, 25, 39, 41, 45, 15, 21, 8, 18, 2, 61, 56, 14]

/-- The constants that make the rounds differ. -/
def roundConstants : List UInt64 :=
  [0x0000000000000001, 0x0000000000008082, 0x800000000000808a, 0x8000000080008000,
   0x000000000000808b, 0x0000000080000001, 0x8000000080008081, 0x8000000000008009,
   0x000000000000008a, 0x0000000000000088, 0x0000000080008009, 0x000000008000000a,
   0x000000008000808b, 0x800000000000008b, 0x8000000000008089, 0x8000000000008003,
   0x8000000000008002, 0x8000000000000080, 0x000000000000800a, 0x800000008000000a,
   0x8000000080008081, 0x8000000000008080, 0x0000000080000001, 0x8000000080008008]

/-- Adds to each lane the parities of the column before it and, rotated, of the one after it. -/
def mixColumns (s : State) : State :=
  let parity : Vector UInt64 5 := Vector.ofFn fun x =>
    lane s x 0 ^^^ lane s x 1 ^^^ lane s x 2 ^^^ lane s x 3 ^^^ lane s x 4
  let parityAt (x : Nat) : UInt64 := parity.get ⟨x % 5, by omega⟩
  ofLanes fun x y => lane s x y ^^^ parityAt (x + 4) ^^^ rotate (parityAt (x + 1)) 1

/-- Rotates each lane by its own distance and moves it to its place in the next step. -/
def rotateAndMove (s : State) : State :=
  ofLanes fun x y =>
    let x' := (x + 3 * y) % 5
    rotate (lane s x' x) (rotations.getD (5 * x + x') 0)

/-- Combines each lane with the next two in its row. -/
def mixRows (s : State) : State :=
  ofLanes fun x y => lane s x y ^^^ (~~~lane s (x + 1) y &&& lane s (x + 2) y)

/-- One round of the permutation. -/
def round (s : State) (constant : UInt64) : State :=
  let s := mixRows (rotateAndMove (mixColumns s))
  s.set 0 (s[0] ^^^ constant)

/-- The permutation of the state. -/
def permute (s : State) : State := roundConstants.foldl round s

/-- Number of bytes of a block. -/
def rate : Nat := 136

/-- The message with its padding, a whole number of blocks. -/
def pad (message : List UInt8) : List UInt8 :=
  let n := rate - message.length % rate
  message ++ if n = 1 then [0x81] else 0x01 :: (List.replicate (n - 2) 0 ++ [0x80])

/-- The word of eight bytes, the lowest first. -/
def wordOfBytes (bytes : List UInt8) : UInt64 :=
  bytes.foldr (fun b w => (w <<< 8) ||| b.toUInt64) 0

/-- Takes a block into the state. -/
def absorb (s : State) (block : List UInt8) : State :=
  permute (ofLanes fun x y =>
    lane s x y ^^^ wordOfBytes ((block.drop (8 * (5 * y + x))).take 8))

/-- The blocks of a padded message. -/
def blocks (bytes : List UInt8) : List (List UInt8) :=
  (List.range (bytes.length / rate)).map fun i => (bytes.drop (rate * i)).take rate

/-- The eight bytes of a word, the lowest first. -/
def bytesOfWord (w : UInt64) : List UInt8 :=
  (List.range 8).map fun i => (w >>> (8 * i).toUInt64).toUInt8

/-- The thirty-two bytes of the digest. -/
def digest (message : List UInt8) : List UInt8 :=
  let s := (blocks (pad message)).foldl absorb (Vector.replicate 25 0)
  bytesOfWord (lane s 0 0) ++ bytesOfWord (lane s 1 0) ++ bytesOfWord (lane s 2 0) ++
    bytesOfWord (lane s 3 0)

end RangeLedger.Keccak
