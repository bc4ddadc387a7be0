import RangeLedger.Ledger.Calls

/-!
# Moving the price

A swap moves the current tick of a pool to a target. Every initialized tick on the way is crossed in
the order of travel, and its net liquidity is added to the active liquidity on the way up and taken
from it on the way down. After the last crossing the pool takes the target tick, the square root of
its price, and the active liquidity that has come out.

A refusal on the way ends the move: crossings that were made stay, and the pool keeps its tick.

## Main results

* `mem_path_up`, `mem_path_down`: which ticks a move crosses.
-/

namespace RangeLedger

/-- The direction in which a price moves. -/
inductive Direction where
  | up
  | down
deriving DecidableEq

namespace Direction

/-- The direction from one tick to another; down if they are the same. -/
def between (current target : Tick) : Direction := if current < target then up else down

/-- The ticks that a move crosses, in the order of travel: those above the current tick up to the
target, or those from the current tick down to the one above the target. -/
def path (dir : Direction) (current target : Tick) (ticks : List Tick) : List Tick :=
  match dir with
  | up => ticks.filter fun t => current < t ∧ t ≤ target
  | down => (ticks.filter fun t => target < t ∧ t ≤ current).reverse

/-- The way up crosses the ticks above the current one, the target included. -/
theorem mem_path_up {current target t : Tick} {ticks : List Tick} :
    t ∈ up.path current target ticks ↔ t ∈ ticks ∧ current < t ∧ t ≤ target := by
  simp [path]

/-- The way down crosses the ticks above the target, the current one included. -/
theorem mem_path_down {current target t : Tick} {ticks : List Tick} :
    t ∈ down.path current target ticks ↔ t ∈ ticks ∧ target < t ∧ t ≤ current := by
  simp [path]

/-- The active liquidity after a tick with the given net liquidity was crossed. -/
def carry (dir : Direction) (liquidity net : Dec) : Except MathError Dec :=
  match dir with
  | up => liquidity.add net
  | down => liquidity.sub net

end Direction

namespace Ledger

/-- Crosses ticks one after another, and answers the active liquidity behind the last one. -/
def crossAll (id : PoolId) (dir : Direction) : List Tick → Dec → Call Dec
  | [], liquidity => return liquidity
  | t :: ts, liquidity => do
    let net ← crossTick id t
    crossAll id dir ts (← dir.carry liquidity net)

/-- Changes a pool, unless the change is refused. -/
def amendPool (id : PoolId) (f : Pool → Except MathError Pool) : Call Unit := do
  let amended ← f (← pool id)
  .write (Operation.setPool amended)

/-- Moves the current tick of a pool to a target with a given square root of the price there, and
answers the ticks that were crossed. If there is no such root the move ends after the crossings. -/
def moveTo (id : PoolId) (target : Tick) (sqrtPrice : Except MathError Dec) :
    Call (List Tick) := do
  let p ← pool id
  let ticks ← initializedTicks id
  let dir := Direction.between p.tick target
  let path := dir.path p.tick target ticks.keys
  let liquidity ← crossAll id dir path p.liquidity
  amendPool id fun p => do
    return { p with tick := target, sqrtPrice := ← sqrtPrice, liquidity := liquidity }
  return path

/-- Moves the current tick of a pool to a target and the price to that of the target. -/
def swapTo (id : PoolId) (target : Tick) : Call (List Tick) := moveTo id target target.sqrtPrice

end Ledger

end RangeLedger
