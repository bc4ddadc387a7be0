import RangeLedger.Number.Bounded

/-!
# The numbers of the ledger

Pools and incentives are numbered by words of 64 bits, token amounts are words of 128 bits, and
ticks, the points of the price axis, are signed words of 64 bits. A position covers the ticks from
its lower boundary up to, but not including, its upper one.
-/

namespace RangeLedger

/-- A natural number of 64 bits. -/
abbrev Word64 := Bounded 0 0xFFFF_FFFF_FFFF_FFFF

/-- There is some word. -/
theorem Word64.zero_le_max : (0 : Int) ≤ 0xFFFF_FFFF_FFFF_FFFF := by decide

/-- The order of words is named, so that what is said of maps over them does not depend on how the
instances of an interval are found. -/
instance : Std.TransOrd Word64 := inferInstanceAs (Std.TransOrd (Bounded _ _))

instance : Std.LawfulEqOrd Word64 := inferInstanceAs (Std.LawfulEqOrd (Bounded _ _))

/-- A number of token units. -/
abbrev Amount := Bounded 0 0xFFFF_FFFF_FFFF_FFFF_FFFF_FFFF_FFFF_FFFF

/-- Number of a pool. -/
abbrev PoolId := Word64

/-- Number of an incentive. -/
abbrev IncentiveId := Word64

/-- A point of the price axis: tick `t` stands for the price `1.0001 ^ t`. -/
abbrev Tick := Bounded (-0x8000_0000_0000_0000) 0x7FFF_FFFF_FFFF_FFFF

namespace Tick

instance : Std.TransOrd Tick := inferInstanceAs (Std.TransOrd (Bounded _ _))

instance : Std.LawfulEqOrd Tick := inferInstanceAs (Std.LawfulEqOrd (Bounded _ _))

/-- The tick at price one. -/
def zero : Tick := ⟨0, by decide, by decide⟩

/-- The lowest tick that a position may reference. -/
def lowest : Tick := ⟨-887272, by decide, by decide⟩

/-- The highest tick that a position may reference. -/
def highest : Tick := ⟨887272, by decide, by decide⟩

end Tick

namespace Amount

/-- There is some amount. -/
theorem zero_le_max : (0 : Int) ≤ 0xFFFF_FFFF_FFFF_FFFF_FFFF_FFFF_FFFF_FFFF := by decide

/-- The amount of nothing. -/
def zero : Amount := Bounded.least zero_le_max

/-- The first number that is too large for an amount. -/
def limit : Nat := 0x1_0000_0000_0000_0000_0000_0000_0000_0000

end Amount

/-- One of the two tokens of a pool. -/
inductive Side where
  | token0
  | token1
deriving DecidableEq

/-- One of the two boundaries of a range. -/
inductive Edge where
  | lower
  | upper
deriving DecidableEq

end RangeLedger
