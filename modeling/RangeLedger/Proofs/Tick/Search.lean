import RangeLedger.Proofs.Tick.Prices

/-!
# The search for the tick of a price

The tick of a price is found by bisection, which compares the price with those of other ticks. Many
of the lowest ticks share one price, zero among them, but no price goes down as the tick goes up.
That is all that bisection needs: it ends at the highest tick whose price does not exceed the given
one.

A bisection asks for the prices of some ticks, and it has an outcome exactly when all of these have
a price (`exists_bisect_iff`). They lie between its ends, and every tick that is in bounds has a
price, so it never fails.

## Main results

* `Tick.exists_price`: every tick in bounds has a price.
* `Tick.exists_bisect_iff`: when a bisection has an outcome.
* `Tick.ofPrice_floor`: the tick of a price is the highest one whose price does not exceed it.
-/

namespace RangeLedger.Tick

variable {t : Tick} {target : Dec}

/-- **Every tick in bounds has a price**, be it zero. -/
theorem exists_price (h : t.InBounds) : ∃ price, t.price = .ok price := by
  have hrange := h.natAbs_le
  have hmax : priceRaw t.val ≤ priceRaw 887272 := priceRaw_mono (by omega) (by omega) (by decide)
  have hfits : (priceRaw 887272 : Int) < Dec.limit := by decide
  have hlimit : 0 < Dec.limit := by decide
  exact ⟨⟨priceRaw t.val, by omega, by omega⟩, price_eq_ok_iff.2 ⟨h, rfl⟩⟩

/-! ### Prices that a search asks for -/

/-- The ticks whose prices a bisection asks for, in order. -/
def probes (target : Dec) : (fuel : Nat) → (low high : Tick) → List Tick
  | 0, _, _ => []
  | fuel + 1, low, high =>
    if high.val - low.val ≤ 1 then []
    else
      midpoint low high ::
        match (midpoint low high).price with
        | .error _ => []
        | .ok price =>
          if price ≤ target then probes target fuel (midpoint low high) high
          else probes target fuel low (midpoint low high)

/-- The ticks whose prices the search for the tick of a price asks for, in order. -/
def asked (target : Dec) : List Tick :=
  if target.isPositive then
    highest ::
      match highest.price with
      | .error _ => []
      | .ok top => if top ≤ target then [] else probes target 21 lowest highest
  else []

/-- **A bisection has an outcome** exactly when every tick that it asks for has a price. -/
theorem exists_bisect_iff {fuel : Nat} {low high : Tick} :
    (∃ t, bisect target fuel low high = .ok t) ↔
      ∀ t ∈ probes target fuel low high, ∃ price, t.price = .ok price := by
  induction fuel generalizing low high with
  | zero => simp [bisect, probes]
  | succ fuel ih =>
    rw [bisect, probes]
    by_cases hclose : high.val - low.val ≤ 1
    · simp [hclose]
    rw [if_neg hclose, if_neg hclose, List.forall_mem_cons]
    cases hmid : (midpoint low high).price with
    | error e => simp [bind, Except.bind, hmid]
    | ok price =>
      by_cases hle : price ≤ target
      · simp only [bind, Except.bind, hmid, if_pos hle, ih]
        simp
      · simp only [bind, Except.bind, hmid, if_neg hle, ih]
        simp

/-- A bisection stays between its ends. -/
theorem inBounds_of_mem_probes {fuel : Nat} {low high : Tick} (hlow : lowest ≤ low)
    (hhigh : high ≤ highest) (h : t ∈ probes target fuel low high) : t.InBounds := by
  induction fuel generalizing low high with
  | zero => cases h
  | succ fuel ih =>
    rw [probes] at h
    split at h
    next => cases h
    next hwide =>
      have hval : (midpoint low high).val = (low.val + high.val) / 2 := rfl
      have hmid : lowest ≤ midpoint low high ∧ midpoint low high ≤ highest := by
        simp only [Bounded.le_def] at hlow hhigh ⊢
        omega
      obtain rfl | h := List.mem_cons.1 h
      · exact hmid
      split at h
      next => cases h
      next price hprice =>
        split at h
        · exact ih hmid.1 hhigh h
        · exact ih hlow hmid.2 h

/-- The search for the tick of a price asks for no price that there is not. -/
theorem exists_price_of_mem_asked (h : t ∈ asked target) : ∃ price, t.price = .ok price := by
  refine exists_price ?_
  rw [asked] at h
  split at h
  next =>
    obtain rfl | h := List.mem_cons.1 h
    · decide
    split at h
    next => cases h
    next top htop =>
      split at h
      · cases h
      · exact inBounds_of_mem_probes (Int.le_refl _) (Int.le_refl _) h
  next => cases h

/-- **The search for the tick of a positive price succeeds.** -/
theorem exists_ofPrice (h : 0 < target.raw) : ∃ t, ofPrice target = .ok t := by
  have hpositive : target.isPositive = true := by simpa [Dec.isPositive] using h
  obtain ⟨top, htop⟩ := exists_price (t := highest) (by decide)
  have hbisect : ∃ t, bisect target 21 lowest highest = .ok t :=
    exists_bisect_iff.2 fun t ht =>
      exists_price (inBounds_of_mem_probes (Int.le_refl _) (Int.le_refl _) ht)
  rw [ofPrice, if_pos hpositive, htop]
  by_cases hle : top ≤ target
  · exact ⟨highest, if_pos hle⟩
  · obtain ⟨t, ht⟩ := hbisect
    exact ⟨t, (if_neg hle).trans ht⟩

/-! ### The tick of a price -/

/-- **The tick of a price.** For a price that is not positive the search fails, and names the price.
For every other it succeeds, with a tick in bounds whose price does not exceed the given one, while
the price of every higher tick in bounds does. On the way it asks for prices of ticks alone that
have one. -/
theorem ofPrice_floor (target : Dec) :
    (target.raw ≤ 0 → ofPrice target = .error (.nonPositivePrice target)) ∧
    (0 < target.raw → ∃ t, ofPrice target = .ok t ∧ t.InBounds ∧
      (∃ price, t.price = .ok price ∧ price ≤ target) ∧
      ∀ t', t < t' → t' ≤ highest → ∃ price, t'.price = .ok price ∧ target < price) ∧
    ∀ t ∈ asked target, ∃ price, t.price = .ok price := by
  refine ⟨fun hle => ?_, fun hpos => ?_, fun t => exists_price_of_mem_asked⟩
  · have hnot : ¬target.isPositive = true := by simpa [Dec.isPositive] using hle
    rw [ofPrice, if_neg hnot]
  obtain ⟨t, ht⟩ := exists_ofPrice hpos
  obtain ⟨-, hbounds, hle, -⟩ := ofPrice_eq_ok ht
  obtain ⟨price, hprice⟩ := exists_price hbounds
  refine ⟨t, ht, hbounds, ⟨price, hprice, ?_⟩, fun t' hlt hmax => ?_⟩
  · rw [Dec.le_def, (price_eq_ok_iff.1 hprice).2]
    exact hle
  · have hbounds' : t'.InBounds := ⟨Int.le_trans hbounds.1 (Int.le_of_lt hlt), hmax⟩
    obtain ⟨price', hprice'⟩ := exists_price hbounds'
    refine ⟨price', hprice', ?_⟩
    rw [Dec.lt_def, (price_eq_ok_iff.1 hprice').2]
    exact lt_priceRaw_of_ofPrice ht hbounds' hlt

end RangeLedger.Tick
