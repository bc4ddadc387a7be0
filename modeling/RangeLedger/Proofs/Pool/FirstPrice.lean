import RangeLedger.Proofs.Ledger.FirstDeposit
import RangeLedger.Proofs.Tick.Prices

/-!
# The sides of a first price

A first price is kept as a tick and as a square root, and both are compared with the boundaries of
ranges: the tick to tell what a position consists of, the root to tell what an offer is worth. Both
come from one quotient that was rounded to a decimal, but the tick is found among prices that were
rounded to decimals too, and the boundaries have roots that were not. So the two comparisons agree
but for one case. A boundary may read as exactly the price of the pool while it is somewhat more,
and then the tick has reached it and the root has not.

Such a boundary is off by less than half of a last digit of the price. At a price near one that is
within the last digit of the root. At the lowest prices it is not: the price of one last digit is
that of thousands of ticks, which it reads as, and the roots of these are far apart.

## Main results

* `Pool.openWith_sides`: on which side of every boundary a first price is.
* `Pool.openWith_not_bracketed`: the root of a first price is not always between those of its tick
  and of the next one.
-/

namespace RangeLedger

/-- A square root is that of the scaled number, rounded down. -/
theorem Dec.sqrt_eq_ok {a root : Dec} (h : a.sqrt = .ok root) :
    root.raw = Nat.sqrt (a.raw.natAbs * scale) := by
  rw [sqrt] at h
  split at h
  next => cases h
  next =>
    split at h
    next => exact ofRaw_eq_ok_iff.1 h
    next => cases h

/-- **A boundary that reads low**: its price reads as the given one and is more, by up to half of a
last digit. -/
structure Tick.ReadsLow (t : Tick) (price root : Dec) : Prop where
  reads : t.price = .ok price
  above : price.raw * Dec.scale < root.raw * root.raw
  within : 2 * (root.raw * root.raw) ≤ 2 * (price.raw * Dec.scale) + Dec.scale

/-! ### Boundaries around a price -/

namespace Tick

/-- Where a tick has a root, so does the next one. -/
theorem exists_sqrtPrice_succ {t next : Tick} {root : Dec} (hroot : t.sqrtPrice = .ok root)
    (hval : next.val = t.val + 1) (hlt : t < highest) : ∃ found, next.sqrtPrice = .ok found := by
  obtain ⟨hbounds, hraw, hpos⟩ := sqrtPrice_eq_ok_iff.1 hroot
  have hnext : next.InBounds := by
    obtain ⟨hlow, -⟩ := hbounds
    rw [Bounded.le_def] at hlow
    rw [Bounded.lt_def] at hlt
    exact ⟨by rw [Bounded.le_def]; omega, by rw [Bounded.le_def]; omega⟩
  have hrange := hbounds.natAbs_le
  have hrange' := hnext.natAbs_le
  have hmono : sqrtPriceRaw t.val ≤ sqrtPriceRaw next.val :=
    sqrtPriceRaw_mono (by omega) (by omega) (by omega)
  obtain ⟨found, hfound, -⟩ := exists_sqrtPrice hnext (by omega)
  exact ⟨found, hfound⟩

variable {t : Tick} {price sqrtPrice root : Dec}
  (hsqrt : sqrtPrice.raw = Nat.sqrt (price.raw.natAbs * Dec.scale)) (hpositive : 0 < price.raw)
  (hroot : t.sqrtPrice = .ok root)

include hsqrt hpositive hroot

/-- **The root of a boundary that a price reaches** is above that of the price exactly when the
boundary reads low. -/
theorem lt_root_iff (hle : (priceRaw t.val : Int) ≤ price.raw) :
    sqrtPrice < root ↔ t.ReadsLow price root := by
  obtain ⟨hbounds, hraw, -⟩ := sqrtPrice_eq_ok_iff.1 hroot
  have hrange : t.val.natAbs ≤ 2 ^ 64 := hbounds.natAbs_le.trans (by decide)
  obtain ⟨n, hn⟩ := Int.eq_ofNat_of_zero_le (Int.le_of_lt hpositive)
  rw [hn, Int.natAbs_natCast] at hsqrt
  have hle : priceRaw t.val ≤ n := by omega
  rw [Dec.lt_def, hsqrt, hraw, Int.ofNat_lt]
  constructor
  · intro hlt
    -- a tick that reads as less has no larger root
    have hsame : priceRaw t.val = n :=
      Nat.le_antisymm hle (Nat.not_lt.1 fun hless =>
        absurd (sqrtPriceRaw_le_sqrt hrange hless) (Nat.not_le.2 hlt))
    refine ⟨price_eq_ok_iff.2 ⟨hbounds, by rw [hn, hsame]⟩, ?_, ?_⟩
    · rw [hn, hraw]
      exact_mod_cast Nat.sqrt_lt.1 hlt
    · rw [hn, hraw]
      exact_mod_cast sqrtPriceRaw_mul_self_le hrange hle
  · rintro ⟨-, habove, -⟩
    rw [hn, hraw] at habove
    exact Nat.sqrt_lt.2 (by exact_mod_cast habove)

/-- A boundary that a price reaches is missed by its root by one last digit at most, where the root
is at least a quarter. -/
theorem root_le_succ (hle : (priceRaw t.val : Int) ≤ price.raw)
    (hlarge : Dec.scale ≤ 4 * sqrtPrice.raw) : root.raw ≤ sqrtPrice.raw + 1 := by
  obtain ⟨hbounds, hraw, -⟩ := sqrtPrice_eq_ok_iff.1 hroot
  have hrange : t.val.natAbs ≤ 2 ^ 64 := hbounds.natAbs_le.trans (by decide)
  obtain ⟨n, hn⟩ := Int.eq_ofNat_of_zero_le (Int.le_of_lt hpositive)
  rw [hn, Int.natAbs_natCast] at hsqrt
  rw [hsqrt] at hlarge ⊢
  rw [hraw]
  exact_mod_cast sqrtPriceRaw_le_succ hrange (by omega) (by exact_mod_cast hlarge)

/-- **The root of a boundary above a price** is not below that of the price, and is above it where
the root is less than a quarter. -/
theorem le_root (hlt : price.raw < priceRaw t.val) :
    sqrtPrice ≤ root ∧ (4 * sqrtPrice.raw < Dec.scale → sqrtPrice < root) := by
  obtain ⟨hbounds, hraw, -⟩ := sqrtPrice_eq_ok_iff.1 hroot
  have hrange : t.val.natAbs ≤ 2 ^ 64 := hbounds.natAbs_le.trans (by decide)
  obtain ⟨n, hn⟩ := Int.eq_ofNat_of_zero_le (Int.le_of_lt hpositive)
  rw [hn, Int.natAbs_natCast] at hsqrt
  have hlt : n < priceRaw t.val := by omega
  rw [Dec.le_def, Dec.lt_def, hsqrt, hraw]
  refine ⟨by exact_mod_cast sqrt_le_sqrtPriceRaw hrange hlt, fun hsmall => ?_⟩
  exact_mod_cast sqrt_lt_sqrtPriceRaw hrange hlt (by exact_mod_cast hsmall)

end Tick

namespace Pool

variable {p opened : Pool} {amount0 amount1 : Amount}

/-- **The sides of a first price.** Let a pool take its first price from an offer of two amounts,
and with it a tick and a square root. Then the tick has a root, which is above that of the pool
exactly when the tick reads low. The next tick, unless there is none, has a root that is not below
that of the pool, and is above it where that of the pool is less than a quarter. And so for every
boundary that has a root. If the tick of the pool is below the boundary, the root of the pool is not
above that of the boundary, and is below it where it is less than a quarter. If the tick has reached
the boundary, so has the root, exactly unless the boundary reads low; and then it misses the root of
the boundary by one last digit at most, where it is at least a quarter. -/
theorem openWith_sides (h : p.openWith amount0 amount1 = .ok opened) :
    ∃ price, (Dec.ofAmount amount1).quo (Dec.ofAmount amount0) = .ok price ∧
      (∃ root, opened.tick.sqrtPrice = .ok root ∧
        (opened.sqrtPrice < root ↔ opened.tick.ReadsLow price root)) ∧
      (∀ next : Tick, next.val = opened.tick.val + 1 → opened.tick < Tick.highest →
        ∃ root, next.sqrtPrice = .ok root ∧ opened.sqrtPrice ≤ root ∧
          (4 * opened.sqrtPrice.raw < Dec.scale → opened.sqrtPrice < root)) ∧
      ∀ (boundary : Tick) root, boundary.sqrtPrice = .ok root →
        (opened.tick < boundary → opened.sqrtPrice ≤ root ∧
          (4 * opened.sqrtPrice.raw < Dec.scale → opened.sqrtPrice < root)) ∧
        (boundary ≤ opened.tick → (opened.sqrtPrice < root ↔ boundary.ReadsLow price root) ∧
          (Dec.scale ≤ 4 * opened.sqrtPrice.raw → root.raw ≤ opened.sqrtPrice.raw + 1)) := by
  obtain ⟨-, -, price, root, tick, hquo, hsqrt, htick, rfl⟩ := openWith_eq_ok_iff.1 h
  obtain ⟨hpositive, hbounds, hle, -⟩ := Tick.ofPrice_eq_ok htick
  have hroot := Dec.sqrt_eq_ok hsqrt
  have hpos := Tick.sqrtPriceRaw_pos_of_ofPrice htick
  obtain ⟨own, hown, -⟩ := Tick.exists_sqrtPrice hbounds hpos
  refine ⟨price, hquo, ⟨own, hown, Tick.lt_root_iff hroot hpositive hown hle⟩,
    fun next hval hlt => ?_, fun boundary found hfound => ⟨fun hlt => ?_, fun hreached => ?_⟩⟩
  · obtain ⟨found, hfound⟩ := Tick.exists_sqrtPrice_succ hown hval hlt
    obtain ⟨hnext, -⟩ := Tick.sqrtPrice_eq_ok_iff.1 hfound
    refine ⟨found, hfound, Tick.le_root hroot hpositive hfound
      (Tick.lt_priceRaw_of_ofPrice htick hnext ?_)⟩
    rw [Bounded.lt_def, hval]
    exact Int.lt_succ _
  · obtain ⟨hboundary, -⟩ := Tick.sqrtPrice_eq_ok_iff.1 hfound
    exact Tick.le_root hroot hpositive hfound
      (Tick.lt_priceRaw_of_ofPrice htick hboundary hlt)
  · obtain ⟨hboundary, -⟩ := Tick.sqrtPrice_eq_ok_iff.1 hfound
    have hle' := Tick.priceRaw_le_of_ofPrice htick hboundary hreached
    exact ⟨Tick.lt_root_iff hroot hpositive hfound hle',
      Tick.root_le_succ hroot hpositive hfound hle'⟩

/-- A price of five thousand, whose root is between those of its tick and of the next one. -/
theorem openWith_sides_sample :
    ∃ opened root next, Sample.pool.openWith (Sample.amount 1) (Sample.amount 5000) = .ok opened ∧
      opened.tick = Sample.tick 85176 ∧ opened.tick.sqrtPrice = .ok root ∧
      root ≤ opened.sqrtPrice ∧ (Sample.tick 85177).sqrtPrice = .ok next ∧
      opened.sqrtPrice ≤ next := by
  obtain ⟨opened, hopened, htick⟩ : ∃ opened,
      Sample.pool.openWith (Sample.amount 1) (Sample.amount 5000) = .ok opened ∧
        opened.tick = Sample.tick 85176 := exists_ok_of_any (by decide +kernel)
  obtain ⟨price, hprice, ⟨root, hroot, hlow⟩, hnext, -⟩ := openWith_sides hopened
  obtain ⟨next, hfound, hle, -⟩ := hnext (Sample.tick 85177) (by rw [htick]; decide)
    (by rw [htick]; decide)
  refine ⟨opened, root, next, hopened, htick, hroot, ?_, hfound, hle⟩
  rw [Dec.le_def, ← Int.not_lt]
  intro hlt
  -- the tick does not read as five thousand
  have hreads := (hlow.1 hlt).reads
  rw [htick, ← hprice] at hreads
  exact absurd hreads (by decide +kernel)

/-- **A first price that is not between the roots of its ticks.** The least price reads as the price
of a tick whose root is larger by a fifth; and a price just below that of a tick has its root. -/
theorem openWith_not_bracketed :
    (∃ (opened : Pool) (root : Dec),
      Sample.pool.openWith (Sample.amount 1_000_000_000_000_000_000) (Sample.amount 1) =
        .ok opened ∧
      opened.tick.sqrtPrice = .ok root ∧ opened.sqrtPrice < root) ∧
    ∃ (opened : Pool) (next : Tick) (root : Dec),
      Sample.pool.openWith (Sample.amount 1_000_000_000_000_000_000)
        (Sample.amount 1_001_100_550_165_033_004) = .ok opened ∧
      opened.tick < Tick.highest ∧ next.val = opened.tick.val + 1 ∧
      next.sqrtPrice = .ok root ∧ ¬opened.sqrtPrice < root := by
  constructor
  · obtain ⟨opened, hopened, habove⟩ : ∃ opened,
        Sample.pool.openWith (Sample.amount 1_000_000_000_000_000_000) (Sample.amount 1) =
          .ok opened ∧ opened.tick.sqrtPrice.toOption.any (opened.sqrtPrice < ·) = true :=
      exists_ok_of_any (by decide +kernel)
    obtain ⟨root, hroot, hlt⟩ := exists_ok_of_any habove
    exact ⟨opened, root, hopened, hroot, hlt⟩
  · obtain ⟨opened, hopened, htick, hnot⟩ : ∃ opened,
        Sample.pool.openWith (Sample.amount 1_000_000_000_000_000_000)
          (Sample.amount 1_001_100_550_165_033_004) = .ok opened ∧
        opened.tick = Sample.tick 10 ∧
        (Sample.tick 11).sqrtPrice.toOption.any (fun root => ¬opened.sqrtPrice < root) = true :=
      exists_ok_of_any (by decide +kernel)
    obtain ⟨root, hroot, hnot⟩ := exists_ok_of_any hnot
    exact ⟨opened, Sample.tick 11, root, hopened, by rw [htick]; decide, by rw [htick]; decide,
      hroot, hnot⟩

end Pool

end RangeLedger
