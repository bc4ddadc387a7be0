import RangeLedger.Proofs.Failure
import RangeLedger.Proofs.Tick.Powers

/-!
# Prices and roots of ticks

From the power of a tick two numbers are taken, and rounded in different ways: the price, to the
nearest decimal, and the square root of the price, down. The root does not come from the rounded
price but from the power itself, so that it may be the root of more, or of less, than the price
says: of up to half of a last digit.

Both increase with the tick. So a tick that is found by comparing prices is on the right side of all
the others as prices go.

## Main results

* `Tick.priceRaw_bounds`: the price of a tick against what its root is taken from.
* `Tick.priceRaw_mono`, `Tick.squaredSqrtPriceRaw_mono`: both increase with the tick.
* `Tick.ofPrice_eq_ok`: what is known of a tick that was found by its price.
-/

namespace RangeLedger

namespace Tick

/-! ### Prices increase -/

/-- A number that is taken from the power of a tick, below zero by a division and from zero on by a
multiple, increases with the tick. -/
theorem mono_of_halves {f g : Nat → Nat} (hf : ∀ a b, wideOne ≤ a → a ≤ b → f b ≤ f a)
    (hg : ∀ a b, a ≤ b → g a ≤ g b) (hmeet : f wideOne = g wideOne) {t u : Int} (h : t ≤ u)
    (ht : t.natAbs ≤ 2 ^ 64) (hu : u.natAbs ≤ 2 ^ 64) :
    (if t < 0 then f (widePower t.natAbs) else g (widePower t.natAbs)) ≤
      if u < 0 then f (widePower u.natAbs) else g (widePower u.natAbs) := by
  by_cases hneg : u < 0
  · rw [if_pos hneg, if_pos (by omega)]
    exact hf _ _ (wideOne_le_widePower hu) (widePower_mono (by omega) ht)
  rw [if_neg hneg]
  by_cases hneg' : t < 0
  · rw [if_pos hneg']
    calc f (widePower t.natAbs) ≤ f wideOne := hf _ _ (Nat.le_refl _) (wideOne_le_widePower ht)
      _ = g wideOne := hmeet
      _ ≤ g (widePower u.natAbs) := hg _ _ (wideOne_le_widePower hu)
  · rw [if_neg hneg']
    exact hg _ _ (widePower_mono (by omega) hu)

section

variable {t u : Int} (h : t ≤ u) (ht : t.natAbs ≤ 2 ^ 64) (hu : u.natAbs ≤ 2 ^ 64)

include h ht hu

/-- **The price increases with the tick.** -/
theorem priceRaw_mono : priceRaw t ≤ priceRaw u :=
  mono_of_halves
    (fun _ _ hone hle => Rounding.halfEven_anti _ (Nat.lt_of_lt_of_le wideOne_pos hone) hle)
    (fun _ _ hle => Rounding.halfEven_mono hle _) (by decide) h ht hu

/-- **What the root is taken from increases with the tick.** -/
theorem squaredSqrtPriceRaw_mono : squaredSqrtPriceRaw t ≤ squaredSqrtPriceRaw u :=
  mono_of_halves
    (fun _ _ hone hle => Nat.div_le_div_left hle (Nat.lt_of_lt_of_le wideOne_pos hone))
    (fun _ _ hle => Nat.div_le_div_right hle) (by decide) h ht hu

/-- **The root of a price increases with the tick.** -/
theorem sqrtPriceRaw_mono : sqrtPriceRaw t ≤ sqrtPriceRaw u :=
  Nat.sqrt_le_sqrt (squaredSqrtPriceRaw_mono h ht hu)

end

/-- **The price of a tick, against what its root is taken from**: they are within half of a last
digit of the price. -/
theorem priceRaw_bounds {t : Int} (ht : t.natAbs ≤ 2 ^ 64) :
    Dec.scale * (2 * priceRaw t) ≤ 2 * squaredSqrtPriceRaw t + Dec.scale ∧
      2 * squaredSqrtPriceRaw t ≤ Dec.scale * (2 * priceRaw t) + Dec.scale := by
  have hpos : 0 < widePower t.natAbs := Nat.lt_of_lt_of_le wideOne_pos (wideOne_le_widePower ht)
  have heven : 2 ∣ Dec.scale := by decide
  rw [priceRaw, squaredSqrtPriceRaw]
  by_cases hneg : t < 0
  · rw [if_pos hneg, if_pos hneg]
    exact Rounding.halfEven_bounds_of_finer (Nat.pow 10 90) hpos heven
  · rw [if_neg hneg, if_neg hneg]
    have hfiner : widePower t.natAbs / Nat.pow 10 36 =
        Dec.scale * widePower t.natAbs / Nat.pow 10 54 :=
      (Nat.mul_div_mul_left _ _ Dec.scale_pos).symm
    rw [hfiner]
    exact Rounding.halfEven_bounds_of_finer _ (by decide) heven

/-! ### Roots of ticks and the root of a price

A price is held in last digits, and its root is rounded down as those of ticks are. -/

section

variable {t : Int} {price : Nat} (ht : t.natAbs ≤ 2 ^ 64)

include ht

/-- The root of a tick that reads as no more than a price is the root of less than half of a last
digit above the price. -/
theorem sqrtPriceRaw_mul_self_le (h : priceRaw t ≤ price) :
    2 * (sqrtPriceRaw t * sqrtPriceRaw t) ≤ 2 * (price * Dec.scale) + Dec.scale := by
  have hfrom := Nat.sqrt_le (squaredSqrtPriceRaw t)
  have hbounds := (priceRaw_bounds ht).2
  have hscaled := Nat.mul_le_mul_left Dec.scale h
  rw [sqrtPriceRaw]
  linarith

/-- A tick that reads as less than a price has no larger root. -/
theorem sqrtPriceRaw_le_sqrt (h : priceRaw t < price) :
    sqrtPriceRaw t ≤ Nat.sqrt (price * Dec.scale) := by
  have hbounds := (priceRaw_bounds ht).2
  have hscaled := Nat.mul_le_mul_left Dec.scale (Nat.succ_le_of_lt h)
  refine Nat.sqrt_le_sqrt ?_
  linarith

/-- A tick that reads as more than a price has no smaller root. -/
theorem sqrt_le_sqrtPriceRaw (h : price < priceRaw t) :
    Nat.sqrt (price * Dec.scale) ≤ sqrtPriceRaw t := by
  have hbounds := (priceRaw_bounds ht).1
  have hscaled := Nat.mul_le_mul_left Dec.scale (Nat.succ_le_of_lt h)
  refine Nat.sqrt_le_sqrt ?_
  linarith

/-- A tick that reads as more than a price has a larger root, where one more last digit of the root
is less than half of a last digit of the price. -/
theorem sqrt_lt_sqrtPriceRaw (h : price < priceRaw t)
    (hsmall : 4 * Nat.sqrt (price * Dec.scale) < Dec.scale) :
    Nat.sqrt (price * Dec.scale) < sqrtPriceRaw t := by
  have hbounds := (priceRaw_bounds ht).1
  have hscaled := Nat.mul_le_mul_left Dec.scale (Nat.succ_le_of_lt h)
  have hroot := Nat.sqrt_le (price * Dec.scale)
  have heven : Dec.scale % 4 = 0 := by decide
  refine Nat.lt_of_succ_le (Nat.le_sqrt.2 ?_)
  generalize Nat.sqrt (price * Dec.scale) = root at hroot hsmall ⊢
  have hsquare : (root + 1) * (root + 1) = root * root + 2 * root + 1 := by ring
  have hroom : 4 * root + 2 ≤ Dec.scale := by omega
  rw [Nat.succ_eq_add_one, hsquare]
  linarith

/-- A tick that reads as no more than a price has a root that is larger by one last digit at most,
where one more last digit of the root is more than a quarter of one of the price. -/
theorem sqrtPriceRaw_le_succ (h : priceRaw t ≤ price)
    (hlarge : Dec.scale ≤ 4 * Nat.sqrt (price * Dec.scale)) :
    sqrtPriceRaw t ≤ Nat.sqrt (price * Dec.scale) + 1 := by
  have habove := sqrtPriceRaw_mul_self_le ht h
  have hroot := Nat.lt_succ_sqrt (price * Dec.scale)
  generalize Nat.sqrt (price * Dec.scale) = root at hroot hlarge ⊢
  by_contra hgt
  have hsquare := Nat.mul_self_le_mul_self (Nat.succ_le_of_lt (Nat.not_le.1 hgt))
  rw [Nat.succ_eq_add_one] at hroot hsquare
  have hsplit : (root + 1) * (root + 1) = root * root + 2 * root + 1 := by ring
  have hsplit' : (root + 1 + 1) * (root + 1 + 1) = root * root + 4 * root + 4 := by ring
  rw [hsplit] at hroot
  rw [hsplit'] at hsquare
  linarith

end

/-! ### Ticks with a price and with a root -/

variable {t : Tick}

/-- A tick in bounds is at most as far from zero as the outermost ticks. -/
theorem InBounds.natAbs_le (h : t.InBounds) : t.val.natAbs ≤ 887272 := by
  obtain ⟨hlow, hhigh⟩ := h
  rw [Bounded.le_def] at hlow hhigh
  change -887272 ≤ t.val at hlow
  change t.val ≤ 887272 at hhigh
  omega

/-- A tick has a price just if it is in bounds. -/
theorem price_eq_ok_iff {price : Dec} :
    t.price = .ok price ↔ t.InBounds ∧ price.raw = priceRaw t.val := by
  rw [Tick.price]
  split
  next h => simp only [Dec.ofRaw_eq_ok_iff, h, true_and]
  next h => simp only [h, false_and, reduceCtorEq]

/-- A tick has a root just if it is in bounds and the root does not round to zero. -/
theorem sqrtPrice_eq_ok_iff {root : Dec} :
    t.sqrtPrice = .ok root ↔ t.InBounds ∧ root.raw = sqrtPriceRaw t.val ∧ 0 < root.raw := by
  rw [sqrtPrice]
  split
  next h =>
    simp only [bind_eq_ok_iff, Dec.ofRaw_eq_ok_iff, h, true_and]
    constructor
    · rintro ⟨found, hfound, hroot⟩
      split at hroot
      next => cases hroot
      next hzero =>
        cases hroot
        have hne : root.raw ≠ 0 := by simpa [Dec.isZero] using hzero
        exact ⟨hfound, by omega⟩
    · rintro ⟨hraw, hpos⟩
      refine ⟨root, hraw, if_neg ?_⟩
      simp only [Dec.isZero, beq_iff_eq]
      omega
  next h => simp only [h, false_and, reduceCtorEq]

/-- Roots are ordered like their ticks. -/
theorem sqrtPrice_mono {u : Tick} {root root' : Dec} (hroot : t.sqrtPrice = .ok root)
    (hroot' : u.sqrtPrice = .ok root') (h : t ≤ u) : root.raw ≤ root'.raw := by
  obtain ⟨hbounds, hraw, -⟩ := sqrtPrice_eq_ok_iff.1 hroot
  obtain ⟨hbounds', hraw', -⟩ := sqrtPrice_eq_ok_iff.1 hroot'
  have hrange := hbounds.natAbs_le
  have hrange' := hbounds'.natAbs_le
  rw [hraw, hraw', Int.ofNat_le]
  exact sqrtPriceRaw_mono h (by omega) (by omega)

/-- No tick in bounds has a root above `10 ^ 20`. -/
theorem sqrtPriceRaw_le {t : Int} (ht : t.natAbs ≤ 887272) : sqrtPriceRaw t ≤ 10 ^ 38 := by
  have htop : sqrtPriceRaw 887272 ≤ 10 ^ 38 := by decide +kernel
  exact (sqrtPriceRaw_mono (by omega) (by omega) (by decide)).trans htop

/-- A tick whose root is not zero has one. -/
theorem exists_sqrtPrice (h : t.InBounds) (hpos : 0 < sqrtPriceRaw t.val) :
    ∃ root, t.sqrtPrice = .ok root ∧ root.raw = sqrtPriceRaw t.val := by
  have hmax := sqrtPriceRaw_le h.natAbs_le
  have hlimit : 10 ^ 38 < Dec.limit := by decide
  have hroot : (0 : Int) < sqrtPriceRaw t.val := by exact_mod_cast hpos
  exact ⟨⟨sqrtPriceRaw t.val, by omega, by omega⟩, sqrtPrice_eq_ok_iff.2 ⟨h, rfl, hroot⟩, rfl⟩

/-- A tick in bounds has a root, unless the root would be zero. -/
theorem sqrtPrice_cases (h : t.InBounds) :
    (∃ root, t.sqrtPrice = .ok root ∧ root.raw = sqrtPriceRaw t.val ∧ 0 < root.raw) ∨
      (t.sqrtPrice = .error (.sqrtPriceUnderflow t) ∧ sqrtPriceRaw t.val = 0) := by
  rcases Nat.eq_zero_or_pos (sqrtPriceRaw t.val) with hzero | hpos
  · refine .inr ⟨?_, hzero⟩
    rw [sqrtPrice, if_pos h, hzero]
    rfl
  · obtain ⟨root, hroot, hraw⟩ := exists_sqrtPrice h hpos
    exact .inl ⟨root, hroot, hraw, by omega⟩

/-! ### Ticks found by a price -/

/-- **Bisection** keeps a price between those of its ends, and so finds neighbours around it. -/
theorem bisect_eq_ok {target : Dec} {fuel : Nat} {low high t : Tick}
    (hlow : (priceRaw low.val : Int) ≤ target.raw) (hhigh : target.raw < priceRaw high.val)
    (hgap : high.val - low.val ≤ 2 ^ fuel) (hlt : low < high)
    (h : bisect target fuel low high = .ok t) :
    low ≤ t ∧ t < high ∧ (priceRaw t.val : Int) ≤ target.raw ∧
      target.raw < priceRaw (t.val + 1) := by
  induction fuel generalizing low high with
  | zero =>
    cases h
    have hnext : t.val + 1 = high.val := by
      rw [Bounded.lt_def] at hlt
      omega
    exact ⟨Int.le_refl _, hlt, hlow, hnext ▸ hhigh⟩
  | succ fuel ih =>
    rw [bisect] at h
    split at h
    next hclose =>
      cases h
      have hnext : t.val + 1 = high.val := by
        rw [Bounded.lt_def] at hlt
        omega
      exact ⟨Int.le_refl _, hlt, hlow, hnext ▸ hhigh⟩
    next hwide =>
      obtain ⟨price, hprice, h⟩ := bind_eq_ok_iff.1 h
      have hraw := (price_eq_ok_iff.1 hprice).2
      have hmid : (midpoint low high).val = (low.val + high.val) / 2 := rfl
      rw [pow_succ] at hgap
      split at h
      next hle =>
        rw [Dec.le_def, hraw] at hle
        obtain ⟨hfrom, hto, hfound⟩ := ih hle hhigh (by omega) (by rw [Bounded.lt_def]; omega) h
        refine ⟨?_, hto, hfound⟩
        rw [Bounded.le_def] at hfrom ⊢
        omega
      next hgt =>
        rw [Dec.le_def, hraw, Int.not_le] at hgt
        obtain ⟨hfrom, hto, hfound⟩ := ih hlow hgt (by omega) (by rw [Bounded.lt_def]; omega) h
        refine ⟨hfrom, ?_, hfound⟩
        rw [Bounded.lt_def] at hto ⊢
        omega

/-- **A tick that was found by a price**: its own price does not exceed it, and that of the next
tick does, unless there is none. -/
theorem ofPrice_eq_ok {target : Dec} {t : Tick} (h : ofPrice target = .ok t) :
    0 < target.raw ∧ t.InBounds ∧ (priceRaw t.val : Int) ≤ target.raw ∧
      (t < highest → target.raw < priceRaw (t.val + 1)) := by
  rw [ofPrice] at h
  split at h
  next hpositive =>
    have hpos : 0 < target.raw := by simpa [Dec.isPositive] using hpositive
    obtain ⟨top, htop, h⟩ := bind_eq_ok_iff.1 h
    have hraw := (price_eq_ok_iff.1 htop).2
    split at h
    next hle =>
      rw [Dec.le_def, hraw] at hle
      cases h
      exact ⟨hpos, ⟨by decide, Int.le_refl _⟩, hle, fun hlt => absurd hlt (Int.lt_irrefl _)⟩
    next hgt =>
      rw [Dec.le_def, hraw, Int.not_le] at hgt
      have hbottom : priceRaw lowest.val = 0 := by decide
      obtain ⟨hfrom, hto, hle, hnext⟩ := bisect_eq_ok (by rw [hbottom]; exact Int.le_of_lt hpos)
        hgt (by decide) (by decide) h
      exact ⟨hpos, ⟨hfrom, Int.le_of_lt hto⟩, hle, fun _ => hnext⟩
  next => cases h

/-- The ticks up to one that was found by a price have prices that do not exceed it. -/
theorem priceRaw_le_of_ofPrice {target : Dec} {u : Tick} (h : ofPrice target = .ok t)
    (hu : u.InBounds) (hle : u ≤ t) : (priceRaw u.val : Int) ≤ target.raw := by
  obtain ⟨-, hbounds, hreached, -⟩ := ofPrice_eq_ok h
  have hrange := hbounds.natAbs_le
  have hrange' := hu.natAbs_le
  have hmono : priceRaw u.val ≤ priceRaw t.val := priceRaw_mono hle (by omega) (by omega)
  omega

/-- The ticks above one that was found by a price have prices that exceed it: that of the next one
does already, and prices do not go down from there. -/
theorem lt_priceRaw_of_ofPrice {target : Dec} {u : Tick} (h : ofPrice target = .ok t)
    (hu : u.InBounds) (hlt : t < u) : target.raw < priceRaw u.val := by
  obtain ⟨-, hbounds, -, hnext⟩ := ofPrice_eq_ok h
  have hmore := hnext (Int.lt_of_lt_of_le hlt hu.2)
  have hrange := hbounds.natAbs_le
  have hrange' := hu.natAbs_le
  have hmono : priceRaw (t.val + 1) ≤ priceRaw u.val := priceRaw_mono hlt (by omega) (by omega)
  omega

/-- **A tick that was found by a price has a root**: no price that is asked for is below the first
one that is not zero. -/
theorem sqrtPriceRaw_pos_of_ofPrice {target : Dec} (h : ofPrice target = .ok t) :
    0 < sqrtPriceRaw t.val := by
  obtain ⟨hpos, hbounds, -, hnext⟩ := ofPrice_eq_ok h
  have hrange := hbounds.natAbs_le
  -- from this tick on there are roots, and up to it the prices are zero
  have hfirst : sqrtPriceRaw (-828970) = 1 ∧ priceRaw (-828970) = 0 := by decide
  by_cases hlow : t.val < -828970
  · have hlt : t < highest := by
      rw [Bounded.lt_def]
      change t.val < 887272
      omega
    have hzero : priceRaw (t.val + 1) ≤ priceRaw (-828970) :=
      priceRaw_mono (by omega) (by omega) (by decide)
    have htarget := hnext hlt
    omega
  · have hroot : sqrtPriceRaw (-828970) ≤ sqrtPriceRaw t.val :=
      sqrtPriceRaw_mono (by omega) (by decide) (by omega)
    omega

end Tick

end RangeLedger
