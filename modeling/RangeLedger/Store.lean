import RangeLedger.Store.Storage

/-!
# The store

The store keeps pools under their numbers, the ticks of each pool, and positions under their keys.
Ticks can be kept for a pool that is not.
-/

namespace RangeLedger

/-- Pools, ticks and positions. -/
structure Store where
  pools : Table Pool.id
  ticks : Map PoolId (Map Tick TickState)
  positions : Table Position.key

namespace Store

/-- The store that keeps nothing. -/
def empty : Store := ⟨Table.empty, Map.empty, Table.empty⟩

instance : Inhabited Store := ⟨empty⟩

/-- The ticks kept for a pool. -/
def ticksOf (s : Store) (pool : PoolId) : Map Tick TickState := s.ticks.getD pool Map.empty

instance : Storage Store where
  pool? s id := s.pools.get? id
  setPool s p := { s with pools := s.pools.insert p }
  tick? s pool t := (s.ticksOf pool).get? t
  setTick s pool t state :=
    { s with ticks := s.ticks.insert pool ((s.ticksOf pool).insert t state) }
  ticks := ticksOf
  position? s key := s.positions.get? key
  setPosition s p := { s with positions := s.positions.insert p }
  erasePosition s key := { s with positions := s.positions.erase key }

/-- The store that keeps the given pools and nothing else. -/
def ofPools (pools : List Pool) : Store := { empty with pools := Table.ofList pools }

end Store

end RangeLedger
