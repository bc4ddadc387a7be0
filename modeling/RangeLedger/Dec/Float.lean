import RangeLedger.Dec
import RangeLedger.Number.Binary64

/-!
# Decimals as floating-point numbers

Metrics are kept in binary64. A decimal is converted to the number nearest to it; zero becomes
positive zero.
-/

namespace RangeLedger.Dec

/-- The pattern of 64 bits of the nearest binary64 number. -/
def floatBits (a : Dec) : Nat :=
  (if a.raw < 0 then 0x8000_0000_0000_0000 else 0) + Binary64.nearestBits a.raw.natAbs scale

/-- The nearest binary64 number. -/
def toFloat (a : Dec) : Float := Float.ofBits a.floatBits.toUInt64

end RangeLedger.Dec
