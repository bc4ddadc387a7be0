import RangeLedger.Proofs.Ledger.Runs
import RangeLedger.Proofs.Pool.Units

/-!
# Deposits and what was offered

A deposit offers an amount of each token, finds the largest liquidity that both amounts back, and
then takes what this liquidity is worth. This can be more than was offered, for two reasons.

* Which amounts back the liquidity is decided by the square root of the price, and which amounts are
  taken by the current tick. The tick is found from prices that are rounded to the nearest decimal,
  so the square root of the price may lie just below a boundary that the tick has reached. Then the
  liquidity is backed as below the range and charged as inside it.
* The liquidity is rounded at its last digit, and over a range of more than about two times ten to
  the eighteenth the last digit is worth more than one unit of the second token.

Apart from these cases a deposit stays within its offer. For the second token the bound on the width
is what it takes; for the first token there is none, as the first price of a pool has a square root
of `10 ^ -9` at least.

## Main results

* `Operation.quote_le_offer`: the bound, for a pool whose tick and square root agree.
* `Ledger.deposit_le_offer_iff`: when a deposit stays within its offer, after every run of calls.
* `Ledger.deposit_exceeds_offer`, `Ledger.wide_deposit_exceeds_offer`: deposits that do not.
-/

namespace RangeLedger

namespace Pool

variable {p : Pool}

/-- The two ways to tell the price agree at a boundary: the square root of the price lies on the
side on which the current tick lies. -/
def AgreesAt (p : Pool) (t : Tick) : Prop :=
  if t ≤ p.tick then Tick.sqrtPriceRaw t.val ≤ p.sqrtPrice.raw
  else p.sqrtPrice.raw ≤ Tick.sqrtPriceRaw t.val

instance (t : Tick) : Decidable (p.AgreesAt t) :=
  inferInstanceAs (Decidable (if t ≤ p.tick then Tick.sqrtPriceRaw t.val ≤ p.sqrtPrice.raw
    else p.sqrtPrice.raw ≤ Tick.sqrtPriceRaw t.val))

/-- At a boundary up to the current tick, the square root is that of the boundary at least. -/
theorem AgreesAt.le_of_le {t : Tick} (h : p.AgreesAt t) (ht : t ≤ p.tick) :
    Tick.sqrtPriceRaw t.val ≤ p.sqrtPrice.raw := by
  rw [AgreesAt] at h
  rwa [if_pos ht] at h

/-- At a boundary above the current tick, the square root is that of the boundary at most. -/
theorem AgreesAt.le_of_lt {t : Tick} (h : p.AgreesAt t) (ht : p.tick < t) :
    p.sqrtPrice.raw ≤ Tick.sqrtPriceRaw t.val := by
  have hnot : ¬t ≤ p.tick := Int.not_le.2 ht
  rw [AgreesAt] at h
  rwa [if_neg hnot] at h

/-- The width of the part of a range below the price, over which the second token is taken. -/
def widthBelow (p : Pool) (lower upper : Tick) : Nat :=
  Liquidity.width (Tick.sqrtPriceRaw lower.val) (p.split lower upper)

/-- The product for the part of a range above the price, over which the first token is taken. -/
def productAbove (p : Pool) (lower upper : Tick) : Nat :=
  Liquidity.product (p.split lower upper) (Tick.sqrtPriceRaw upper.val)

/-- The rounded product of a liquidity and the width of the part of a range above the price. -/
def spreadAbove (p : Pool) (lower upper : Tick) (liquidity : Nat) : Nat :=
  Liquidity.spread liquidity (p.split lower upper) (Tick.sqrtPriceRaw upper.val)

/-- A liquidity costs no more than an offer: in neither token does the cost, as a fraction, come
within half of a last digit of one unit more than was offered. -/
def Affords (p : Pool) (lower upper : Tick) (liquidity amount0 amount1 : Nat) : Prop :=
  (p.productAbove lower upper = 0 ∨
    2 * (Dec.scale * p.spreadAbove lower upper liquidity) + p.productAbove lower upper <
      2 * (Dec.scale * (p.productAbove lower upper * (amount0 + 1)))) ∧
  2 * (liquidity * p.widthBelow lower upper) + Dec.scale <
    2 * (Dec.scale * (Dec.scale * (amount1 + 1)))

/-- What a liquidity is worth stays within an offer exactly when the offer affords it. -/
theorem affords_iff (p : Pool) (lower upper : Tick) (liquidity amount0 amount1 : Nat) :
    p.Affords lower upper liquidity amount0 amount1 ↔
      p.units .token0 lower upper liquidity ≤ amount0 ∧
        p.units .token1 lower upper liquidity ≤ amount1 := by
  refine and_congr ?_ (Liquidity.units1_le_iff _ _ _ _).symm
  rcases Nat.eq_zero_or_pos (p.productAbove lower upper) with hzero | hpos
  · have hunits : p.units .token0 lower upper liquidity = 0 :=
      Liquidity.units0_of_product_eq_zero hzero liquidity
    rw [hunits]
    exact iff_of_true (.inl hzero) (Nat.zero_le amount0)
  · have hne : p.productAbove lower upper ≠ 0 := Nat.ne_of_gt hpos
    rw [or_iff_right hne]
    exact (Liquidity.units0_le_iff hpos _ _).symm

end Pool

/-! ### Where tick and square root agree -/

section

open Liquidity

variable {p : Pool} {lower upper : Tick} {a b liquidity : Dec} {n0 n1 : Amount}
  (ha : a.raw = Tick.sqrtPriceRaw lower.val) (hb : b.raw = Tick.sqrtPriceRaw upper.val)
  (hlower : p.AgreesAt lower) (hupper : p.AgreesAt upper)
  (h : ofAmounts p.sqrtPrice a b n0 n1 = .ok liquidity)

include ha hb hlower hupper h

/-- Below the range the first token backs the liquidity and is taken for it. -/
theorem Pool.units_le_of_below (hsqrt : 2 ≤ p.sqrtPrice.raw) (hbelow : p.tick < lower)
    (hordered : lower < upper) :
    p.units .token0 lower upper liquidity.raw.natAbs ≤ n0.toNat ∧
      p.units .token1 lower upper liquidity.raw.natAbs = 0 := by
  have hleft := hlower.le_of_lt hbelow
  have hright := hupper.le_of_lt (Int.lt_trans hbelow hordered)
  simp only [units, split_of_below hbelow, ← ha, ← hb, units1_self, and_true] at hleft hright ⊢
  have hcases := ofAmounts_cases h
  obtain ⟨heq, -⟩ | ⟨heq, -⟩ := ordered_cases a b
  · simp only [heq] at hcases
    obtain ⟨-, h0⟩ | ⟨hgt, -⟩ | ⟨hgt, -⟩ := hcases
    · exact units0_le_of_backed h0 (Nat.le_refl _) (by omega) (by omega)
    · omega
    · omega
  · simp only [heq] at hcases
    obtain ⟨-, h0⟩ | ⟨hgt, -⟩ | ⟨hgt, -⟩ := hcases
    · rw [units0_comm]
      exact units0_le_of_backed h0 (Nat.le_refl _) (by omega) (by omega)
    · omega
    · omega

/-- Inside the range both tokens back the liquidity, and both are taken for it. -/
theorem Pool.units_le_of_inRange (hpositive : 0 < liquidity.raw) (hsqrt : 2 ≤ p.sqrtPrice.raw)
    (hin : p.InRange lower upper) :
    p.units .token0 lower upper liquidity.raw.natAbs ≤ n0.toNat ∧
      (p.widthBelow lower upper + Dec.scale < 2 * (Dec.scale * Dec.scale) →
        p.units .token1 lower upper liquidity.raw.natAbs ≤ n1.toNat) := by
  have hleft := hlower.le_of_le hin.1
  have hright := hupper.le_of_lt hin.2
  simp only [units, widthBelow, split_of_inRange hin, ← ha, ← hb] at hleft hright ⊢
  obtain ⟨heq, -⟩ | ⟨-, hlt⟩ := ordered_cases a b
  · have hcases := ofAmounts_cases h
    simp only [heq] at hcases
    obtain ⟨hle, h0⟩ | ⟨-, -, from0, from1, h0, h1, hle0, hle1⟩ | ⟨hgt, -⟩ := hcases
    · -- at the lower boundary itself nothing is taken of the second token
      have hroot : p.sqrtPrice.raw = a.raw := Int.le_antisymm hle hleft
      rw [hroot, units1_self]
      exact ⟨units0_le_of_backed h0 (Nat.le_refl _) (by omega) (by omega),
        fun _ => Nat.zero_le _⟩
    · refine ⟨units0_le_of_backed h0 (by omega) hsqrt (by omega), fun hnarrow => ?_⟩
      rw [width_comm] at hnarrow
      rw [units1_comm]
      exact units1_le_of_backed h1 (by omega) hnarrow
    · exact absurd hgt (Int.not_lt.2 hright)
  · omega

/-- Above the range the second token backs the liquidity and is taken for it. -/
theorem Pool.units_le_of_above (habove : upper ≤ p.tick) (hordered : lower < upper) :
    p.units .token0 lower upper liquidity.raw.natAbs = 0 ∧
      (p.widthBelow lower upper + Dec.scale < 2 * (Dec.scale * Dec.scale) →
        p.units .token1 lower upper liquidity.raw.natAbs ≤ n1.toNat) := by
  have hle : lower ≤ p.tick := Int.le_trans (Int.le_of_lt hordered) habove
  have hleft := hlower.le_of_le hle
  have hright := hupper.le_of_le habove
  simp only [units, widthBelow, split_of_above (Int.not_lt.2 hle) (Int.not_lt.2 habove), ← ha, ← hb,
    units0_self, true_and] at hleft hright ⊢
  intro hnarrow
  -- at the upper boundary itself the width above the price is nothing, and backs no liquidity
  have hnone {x y : Dec} {n : Amount} {l : Dec} (hxy : x.raw = y.raw) :
      ofAmount0 n x y ≠ .ok l := by
    intro hback
    have hwidth := (natAbs_ofAmount0 hback).1
    rw [hxy, width_self] at hwidth
    exact Nat.lt_irrefl 0 hwidth
  have hcases := ofAmounts_cases h
  obtain ⟨heq, hab⟩ | ⟨heq, hab⟩ := ordered_cases a b
  · simp only [heq] at hcases
    obtain ⟨hbelow, h0⟩ | ⟨-, hin, from0, -, h0, -⟩ | ⟨-, h1⟩ := hcases
    · exact absurd h0 (hnone (by omega))
    · exact absurd h0 (hnone (by omega))
    · rw [width_comm] at hnarrow
      rw [units1_comm]
      exact units1_le_of_backed h1 (Nat.le_refl _) hnarrow
  · simp only [heq] at hcases
    obtain ⟨hbelow, h0⟩ | ⟨-, hin, from0, -, h0, -⟩ | ⟨-, h1⟩ := hcases
    · omega
    · exact absurd h0 (hnone (by omega))
    · exact units1_le_of_backed h1 (Nat.le_refl _) hnarrow

end

namespace Operation

variable {p : Pool} {d : Deposit} {r : Receipt}

/-- **A deposit stays within its offer** if the tick and the square root of the price agree at both
boundaries, and the part of the range below the price is not too wide. -/
theorem quote_le_offer (h : quote p d = .ok r) (hordered : d.lower < d.upper)
    (hlower : p.AgreesAt d.lower) (hupper : p.AgreesAt d.upper) (hsqrt : 2 ≤ p.sqrtPrice.raw) :
    r.amount0.toNat ≤ d.amount0.toNat ∧
      (p.widthBelow d.lower d.upper + Dec.scale < 2 * (Dec.scale * Dec.scale) →
        r.amount1.toNat ≤ d.amount1.toNat) := by
  obtain ⟨a, b, -, ha, hb, hback, hpositive, -⟩ := quote_eq_ok_iff.1 h
  obtain ⟨hunits0, hunits1⟩ := quote_units h
  obtain ⟨-, ha, -⟩ := Tick.sqrtPrice_eq_ok_iff.1 ha
  obtain ⟨-, hb, -⟩ := Tick.sqrtPrice_eq_ok_iff.1 hb
  have hnat : r.liquidity.raw.toNat = r.liquidity.raw.natAbs := by omega
  rw [hunits0, hunits1, hnat]
  by_cases hbelow : p.tick < d.lower
  · obtain ⟨h0, h1⟩ := Pool.units_le_of_below ha hb hlower hupper hback hsqrt hbelow hordered
    rw [h1]
    exact ⟨h0, fun _ => Nat.zero_le _⟩
  · by_cases hin : p.tick < d.upper
    · exact Pool.units_le_of_inRange ha hb hlower hupper hback hpositive hsqrt
        ⟨Int.not_lt.1 hbelow, hin⟩
    · obtain ⟨h0, h1⟩ :=
        Pool.units_le_of_above ha hb hlower hupper hback (Int.not_lt.1 hin) hordered
      rw [h0]
      exact ⟨Nat.zero_le _, h1⟩

end Operation

/-! ### Prices that offers have set -/

/-- Every pool is without a price, or has one whose square root is `10 ^ -9` at least, as every
first price has. -/
def Store.PricedByOffers (s : Store) : Prop :=
  ∀ id p, s.pools.get? id = some p → p.isUnpriced = true ∨ 1_000_000_000 ≤ p.sqrtPrice.raw

namespace Store.PricedByOffers

variable {s s' : Store}

/-- Crossings keep the prices. -/
theorem of_recrossed (h : s.PricedByOffers) (hs : s.Recrossed s') : s'.PricedByOffers := by
  intro id p' hp'
  obtain ⟨p, hp, heq⟩ := hs.pool hp'
  rw [heq]
  exact h id p hp

/-- A change of a position keeps the prices. -/
theorem of_repositioned (h : s.PricedByOffers) {position : Position} {delta : Dec}
    (hs : s.Repositioned position delta s') : s'.PricedByOffers := by
  intro id p' hp'
  obtain ⟨p, hp, heq⟩ := hs.pool hp'
  rw [heq]
  exact h id p hp

/-- **A first price** is one that an offer has set. -/
theorem of_pricedAs (h : s.PricedByOffers) {found p : Pool} {amount0 amount1 : Amount}
    (hs : Operation.PricedAs s found amount0 amount1 p s') : s'.PricedByOffers := by
  obtain ⟨-, hopen, rfl⟩ | ⟨-, -, rfl⟩ := hs
  · obtain ⟨root, tick, rfl, hroot⟩ := Pool.openWith_eq_ok hopen
    intro id p hp
    rw [get?_setPool] at hp
    split at hp
    next =>
      cases hp
      exact .inr hroot
    next => exact h id p hp
  · exact h

/-- **A deposit** sets at most the first price of its pool. -/
theorem of_deposit (h : s.PricedByOffers) {now : Timestamp} {c : Config} {d : Deposit} {r : Receipt}
    (hrun : (Operation.deposit now c d).run s = (.ok r, s')) : s'.PricedByOffers := by
  obtain ⟨_, _, _, _, -, -, hpriced, -, -, -, -, hs⟩ := Operation.deposit_effect hrun
  exact (h.of_pricedAs hpriced).of_repositioned hs

end Store.PricedByOffers

/-- Prices are set by offers alone, in every run of calls on pools that have none. -/
theorem Store.pricedByOffers_after_calls {l : Ledger}
    (hl : ∀ p ∈ l.store.pools.toList, p.isUnpriced = true) {events : List Event}
    (hevents : ∀ e ∈ events, e.IsCall) : (l.after events).store.PricedByOffers := by
  refine Ledger.store_after_calls (fun _ _ hs h => h.of_recrossed hs)
    (fun _ _ _ _ _ _ hrun h => h.of_deposit hrun) ?_
    (fun _ p hp => .inl (hl p (Table.mem_of_get? hp))) hevents
  intro s s' now c w out hrun h
  obtain ⟨_, _, _, -, -, -, -, -, -, -, -, -, hs⟩ := Operation.withdraw_effect hrun
  exact h.of_repositioned hs

/-! ### Deposits on a ledger -/

/-- **When a deposit stays within its offer.** After every run of calls on a ledger whose pools had
no price, let a deposit be accepted. It has moved the amounts on its receipt from the owner to the
account of the pool. They are within the offer exactly when, at the price of the pool, the offer
affords the liquidity on the receipt. If tick and square root of the price agree at both boundaries,
the first token always is within the offer, and the second one is if the part of the range below the
price has a width of less than `2 * 10 ^ 18 - 1`. -/
theorem Ledger.deposit_le_offer_iff {l : Ledger}
    (hl : ∀ p ∈ l.store.pools.toList, p.isUnpriced = true) {events : List Event}
    (hevents : ∀ e ∈ events, e.IsCall) {d : Deposit} {r : Receipt} {l' : Ledger}
    (h : (Ledger.deposit d).run (l.after events) = (.ok r, l')) :
    ∃ p, l'.store.pools.get? d.pool = some p ∧
      (l.after events).bank.send d.owner p.address (p.coins r.amount0 r.amount1) = .ok l'.bank ∧
      (r.amount0 ≤ d.amount0 ∧ r.amount1 ≤ d.amount1 ↔
        p.Affords d.lower d.upper r.liquidity.raw.toNat d.amount0.toNat d.amount1.toNat) ∧
      (p.AgreesAt d.lower → p.AgreesAt d.upper → r.amount0 ≤ d.amount0 ∧
        (p.widthBelow d.lower d.upper + Dec.scale < 2 * (Dec.scale * Dec.scale) →
          r.amount1 ≤ d.amount1)) := by
  obtain ⟨s, p', bank, metrics, hrun, hp', hsend, rfl⟩ := Ledger.deposit_eq_ok h
  obtain ⟨found, p, s₁, position, hfound, hordered, hpriced, hquote, hkey, -, -, hs⟩ :=
    Operation.deposit_effect hrun
  have hp := hpriced.get?_eq hfound
  have heq := hs.pool_eq hp hp'
  have hsqrt : 2 ≤ p.sqrtPrice.raw := by
    have hbefore := Store.pricedByOffers_after_calls hl hevents
    obtain hunpriced | hroot := hbefore.of_pricedAs hpriced d.pool p hp
    · rw [hpriced.isUnpriced_eq_false] at hunpriced
      cases hunpriced
    · omega
  have hunits : p'.units = p.units := Pool.units_congr (by rw [heq]) (by rw [heq])
  obtain ⟨hunits0, hunits1⟩ := Operation.quote_units hquote
  simp only [← Amount.toNat_le_iff]
  refine ⟨p', hp', hsend, ?_, fun hlower hupper => ?_⟩
  · rw [Pool.affords_iff, hunits, hunits0, hunits1]
  · rw [heq] at hlower hupper ⊢
    exact Operation.quote_le_offer hquote hordered hlower hupper hsqrt

/-- A deposit inside the range, after two others: it takes both tokens, and neither in excess. -/
theorem Ledger.deposit_le_offer_iff_sample :
    ∃ r l', (Ledger.deposit (Sample.deposit 700 900 (-10) 20)).run
        (Sample.ledger.after Sample.neighbours) = (.ok r, l') ∧
      r.amount0 ≤ Sample.amount 700 ∧ r.amount1 ≤ Sample.amount 900 := by
  obtain ⟨r, l', hrun, -⟩ : ∃ r l', (Ledger.deposit (Sample.deposit 700 900 (-10) 20)).run
      (Sample.ledger.after Sample.neighbours) = (.ok r, l') ∧ True :=
    Call.exists_of_any (by decide +kernel)
  have hagrees : (((Ledger.deposit (Sample.deposit 700 900 (-10) 20)).run
      (Sample.ledger.after Sample.neighbours)).2.store.pools.get? Sample.pool.id).all (fun p =>
        p.AgreesAt (Sample.tick (-10)) ∧ p.AgreesAt (Sample.tick 20) ∧
          p.widthBelow (Sample.tick (-10)) (Sample.tick 20) + Dec.scale <
            2 * (Dec.scale * Dec.scale)) = true := by decide +kernel
  have hunpriced : ∀ p ∈ Sample.ledger.store.pools.toList, p.isUnpriced = true := by decide
  obtain ⟨p, hp, -, -, hwithin⟩ :=
    Ledger.deposit_le_offer_iff hunpriced Sample.isCall_neighbours hrun
  have hp : l'.store.pools.get? Sample.pool.id = some p := hp
  rw [hrun, hp] at hagrees
  obtain ⟨hlower, hupper, hnarrow⟩ := of_decide_eq_true hagrees
  obtain ⟨h0, h1⟩ := hwithin hlower hupper
  exact ⟨r, l', hrun, h0, h1 hnarrow⟩

/-! ### Deposits that exceed their offer -/

namespace Sample

/-- The small ledger, with an owner who holds more than any deposit takes. -/
def wealthy : Ledger :=
  { ledger with
    bank := ⟨Map.ofList [(⟨owner, "eth"⟩, amount 300000000000000000000000000000000000000),
      (⟨owner, "usdc"⟩, amount 310000000000000000000000000000000000000)]⟩ }

/-- A first deposit that sets a price of `10 ^ -18`, over a range between the square root of that
price and the tick that is found for it. -/
def lowDeposit : Deposit := deposit 1000000000000000000000000000000 600000000000 (-412000) (-411000)

/-- A first deposit over a range so wide that the last digit of its liquidity is worth more than one
unit of the second token. -/
def wideDeposit : Deposit := deposit 1 300000000000000000000000000000000000007 0 880000

end Sample

/-- **A deposit that takes more than was offered**, on a fresh ledger: the square root of its price
lies below the range, the tick above it. -/
theorem Ledger.deposit_exceeds_offer : Sample.wealthy.store.IsFresh ∧
    ∃ r l', (Ledger.deposit Sample.lowDeposit).run Sample.wealthy = (.ok r, l') ∧
      Sample.lowDeposit.amount1 < r.amount1 := by
  refine ⟨Sample.ledger_isFresh, Call.exists_of_any ?_⟩
  decide +kernel

/-- **A wide deposit that takes more than was offered**, on a fresh ledger. -/
theorem Ledger.wide_deposit_exceeds_offer : Sample.wealthy.store.IsFresh ∧
    ∃ r l', (Ledger.deposit Sample.wideDeposit).run Sample.wealthy = (.ok r, l') ∧
      Sample.wideDeposit.amount1 < r.amount1 := by
  refine ⟨Sample.ledger_isFresh, Call.exists_of_any ?_⟩
  decide +kernel

end RangeLedger
