import RangeLedger.Address
import RangeLedger.Dec
import RangeLedger.Table.Map

/-!
# Positions

A position is liquidity of one owner over one range of one pool, committed to a set of incentives.
An owner may hold a position with incentives and one without over the same range side by side.
-/

namespace RangeLedger

/-- What identifies a position. -/
@[ext]
structure PositionKey where
  pool : PoolId
  owner : Address
  lower : Tick
  upper : Tick
  /-- Whether the position is committed to some incentive. -/
  incentivized : Bool
deriving DecidableEq

namespace PositionKey

/-- The key of a position with the given incentives. -/
def ofIncentives (pool : PoolId) (owner : Address) (lower upper : Tick)
    (incentives : OrderedSet IncentiveId) : PositionKey :=
  ⟨pool, owner, lower, upper, !incentives.isEmpty⟩

/-- Keys are ordered by pool, owner, lower boundary and upper boundary; of two keys that agree in
all four, the one without incentives comes first. -/
def order : PositionKey → PositionKey → Ordering :=
  compareLex (compareOn pool) <| compareLex (compareOn owner) <| compareLex (compareOn lower) <|
    compareLex (compareOn upper) (compareOn incentivized)

instance : Ord PositionKey := ⟨order⟩

instance : Std.TransOrd PositionKey := by
  unfold Std.TransOrd
  exact inferInstanceAs (Std.TransCmp
    (compareLex (compareOn pool) <| compareLex (compareOn owner) <| compareLex (compareOn lower) <|
      compareLex (compareOn upper) (compareOn incentivized)))

instance : Std.LawfulEqOrd PositionKey where
  eq_of_compare {a b} h := by
    have h : order a b = .eq := h
    simp only [order, compareLex_eq_eq, compareOn, Std.LawfulEqCmp.compare_eq_iff_eq] at h
    obtain ⟨h₁, h₂, h₃, h₄, h₅⟩ := h
    exact PositionKey.ext h₁ h₂ h₃ h₄ h₅

end PositionKey

/-- A position. -/
@[ext]
structure Position where
  key : PositionKey
  liquidity : Dec
  /-- The incentives that the liquidity counts for. -/
  incentives : OrderedSet IncentiveId
deriving DecidableEq

namespace Position

/-- A position that holds nothing yet. -/
def empty (key : PositionKey) (incentives : OrderedSet IncentiveId) : Position :=
  ⟨key, Dec.zero, incentives⟩

/-- Whether the position is committed to exactly these incentives. -/
def isCommittedTo (p : Position) (incentives : OrderedSet IncentiveId) : Bool :=
  p.incentives == incentives

end Position

end RangeLedger
