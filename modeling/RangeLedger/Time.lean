import RangeLedger.Dec

/-!
# Time

Block times are nanoseconds since an epoch, in a word of 64 bits, and spans of time have whole
seconds in such a word and nanoseconds below a second. Arithmetic stops at the ends of the range.
-/

namespace RangeLedger

/-- A span of time, in nanoseconds: at most `2 ^ 64 - 1` seconds and 999999999 nanoseconds. -/
abbrev Duration := Bounded 0 (0x1_0000_0000_0000_0000 * 1_000_000_000 - 1)

/-- A block time. -/
@[ext]
structure Timestamp where
  /-- Nanoseconds since the epoch. -/
  nanos : Word64
deriving DecidableEq

namespace Duration

/-- No time. -/
def zero : Duration := Bounded.least (by decide)

/-- The whole seconds. -/
def secs (d : Duration) : Int := d.val / 1_000_000_000

/-- The nanoseconds below a second. -/
def subsecNanos (d : Duration) : Int := d.val % 1_000_000_000

/-- The span of the given seconds and nanoseconds; whole seconds among the nanoseconds carry
over. There is none if the seconds then exceed their word. -/
def ofParts? (secs : Word64) (nanos : Bounded 0 0xFFFF_FFFF) : Option Duration :=
  Bounded.ofInt? (secs.val * 1_000_000_000 + nanos.val)

/-- The difference, or no time if it would be negative. -/
def monus (d e : Duration) : Duration :=
  ⟨max 0 (d.val - e.val), by omega, by have := d.le_hi; have := e.lo_le; omega⟩

/-- The seconds as a decimal, exact to the nanosecond. -/
def toDec (d : Duration) : Dec :=
  ⟨d.val * 1_000_000_000, by have := d.lo_le; unfold Dec.limit; omega,
    by have := d.le_hi; unfold Dec.limit; omega⟩

end Duration

namespace Timestamp

/-- The epoch. -/
def zero : Timestamp := ⟨Bounded.least (by decide)⟩

instance : Inhabited Timestamp := ⟨zero⟩

/-- The time a number of seconds after the epoch, or the last time that can be told. -/
def ofSecs (s : Word64) : Timestamp := ⟨Bounded.clamp (by decide) (s.val * 1_000_000_000)⟩

/-- The time elapsed since an earlier time; none if that time is later. -/
def since (t earlier : Timestamp) : Duration :=
  ⟨max 0 (t.nanos.val - earlier.nanos.val), by omega,
    by have := t.nanos.le_hi; have := earlier.nanos.lo_le; omega⟩

/-- The time after a span has passed, or the last time that can be told. -/
def add (t : Timestamp) (d : Duration) : Timestamp :=
  ⟨Bounded.clamp (by decide) (t.nanos.val + d.val)⟩

end Timestamp

/-- A clock that is moved by hand. -/
structure Clock where
  now : Timestamp

namespace Clock

/-- Sets the time, forward or back. -/
def set (_ : Clock) (t : Timestamp) : Clock := ⟨t⟩

/-- Lets a span of time pass. -/
def advance (c : Clock) (d : Duration) : Clock := ⟨c.now.add d⟩

end Clock

end RangeLedger
