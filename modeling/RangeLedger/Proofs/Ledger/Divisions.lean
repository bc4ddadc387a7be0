import RangeLedger.Proofs.Dec.Exact
import RangeLedger.Proofs.Ledger.Inside
import RangeLedger.Proofs.Operation.Refusals
import RangeLedger.Proofs.Pool.Units

/-!
# Divisions by zero

A deposit into a pool with a price divides by widths, to find the liquidity that the offer backs,
and by a rounded product of square roots, to find what this liquidity takes. The product is no
danger: where it rounds to zero the first token backs no liquidity, and the deposit has been refused
before. Of the widths, that of the range is not zero, and neither is the part of it below a price
inside the range. What remains is the part above the price. It is asked for up to and including the
upper boundary, where it is nothing: a deposit at just the price of the upper boundary divides by
zero.

A range does not contain its upper boundary, and what liquidity is worth there is found without the
first token. So this is the one price at which the two sides of a deposit take the range in two
different ways.

## Main results

* `Liquidity.ofAmounts_eq_divisionByZero_iff`: when the liquidity that is backed divides by zero.
* `Pool.amounts_ne_divisionByZero`: the amounts of liquidity that is backed never do.
* `Operation.deposit_eq_divisionByZero_iff`: when a deposit divides by zero.
* `Operation.deposit_at_upper_boundary`: a deposit that does.
-/

namespace RangeLedger

/-! ### Quotients and products -/

namespace Dec

/-- A quotient divides by zero when it says so. -/
theorem quo_eq_divisionByZero_iff {a b : Dec} : a.quo b = .error .divisionByZero ↔ b.raw = 0 := by
  rw [quo, quoWith]
  split
  next hzero => exact iff_of_true rfl hzero
  next hne =>
    have hother : FailsOnly
        (if a.raw.natAbs * scale < wordSize then
          ofRaw (Rounding.halfEven.signedQuotient (a.raw * scale) b.raw)
        else .error .overflow) (· ≠ MathError.divisionByZero) :=
      .ite (failsOnly_ofRaw (by simp) _) (.error (by simp))
    exact iff_of_false (fun h => hother _ h rfl) hne

/-- A product is never refused for a division. -/
theorem mul_never_divides (a b : Dec) : FailsOnly (a.mul b) (· ≠ .divisionByZero) :=
  failsOnly_mul (by simp) a b

/-- A difference is never refused for a division. -/
theorem sub_never_divides (a b : Dec) : FailsOnly (a.sub b) (· ≠ .divisionByZero) :=
  failsOnly_ofRaw (by simp) _

/-- Two decimals have a product when that of their raw magnitudes fits the word. -/
theorem exists_mul_iff (a b : Dec) :
    (∃ c, a.mul b = .ok c) ↔ a.raw.natAbs * b.raw.natAbs < wordSize := by
  obtain ⟨hok, herror⟩ := mulWith_yields .halfEven a b
  rw [← wordSize_eq] at hok herror
  constructor
  · rintro ⟨c, h⟩
    by_contra hfits
    cases (herror hfits).symm.trans h
  · intro hfits
    obtain ⟨c, hc, -⟩ := hok hfits
    exact ⟨c, hc⟩

end Dec

/-! ### Liquidity that is backed -/

namespace Liquidity

variable {a b price liquidity : Dec} {n n0 n1 : Amount}

/-- The width of a range is zero when its two ends are the same. -/
theorem exists_width_zero_iff :
    (∃ width, (ordered a b).2.sub (ordered a b).1 = .ok width ∧ width.raw = 0) ↔ a = b := by
  constructor
  · rintro ⟨w, hwidth, hzero⟩
    have hnatAbs := natAbs_width hwidth
    rw [hzero, width] at hnatAbs
    refine Dec.ext ?_
    omega
  · rintro rfl
    have hordered : ordered a a = (a, a) := ite_self _
    rw [hordered]
    exact ⟨Dec.zero, Dec.sub_eq_ok_iff.2 (Int.sub_self a.raw).symm, rfl⟩

/-- The liquidity that the second token backs divides by zero over a range of no width. -/
theorem ofAmount1_eq_divisionByZero_iff :
    ofAmount1 n a b = .error .divisionByZero ↔ a = b := by
  rw [ofAmount1]
  simp only [(Dec.sub_never_divides _ _).bind_eq_error_iff_of, Dec.quo_eq_divisionByZero_iff]
  exact exists_width_zero_iff

/-- The liquidity that the first token backs divides by zero over a range of no width, unless it has
left the range of decimals before. -/
theorem ofAmount0_eq_divisionByZero_iff :
    ofAmount0 n a b = .error .divisionByZero ↔
      a = b ∧ a.raw.natAbs * a.raw.natAbs < Dec.wordSize ∧
        n.toNat * Dec.scale * product a.raw a.raw < Dec.wordSize := by
  rw [ofAmount0]
  simp only [(Dec.mul_never_divides _ _).bind_eq_error_iff_of,
    (Dec.sub_never_divides _ _).bind_eq_error_iff_of, Dec.quo_eq_divisionByZero_iff]
  rw [← Dec.exists_mul_iff]
  constructor
  · rintro ⟨p, hproduct, width, hwidth, m, hscaled, hzero⟩
    obtain rfl := exists_width_zero_iff.1 ⟨width, hwidth, hzero⟩
    have hordered : ordered a a = (a, a) := ite_self _
    have hfits := (Dec.exists_mul_iff _ _).1 ⟨m, hscaled⟩
    rw [Dec.natAbs_ofAmount, natAbs_product hproduct] at hfits
    rw [hordered] at hproduct
    exact ⟨rfl, ⟨p, hproduct⟩, hfits⟩
  · rintro ⟨rfl, ⟨p, hproduct⟩, hfits⟩
    have hordered : ordered a a = (a, a) := ite_self _
    obtain ⟨width, hwidth, hzero⟩ := exists_width_zero_iff.2 (rfl : a = a)
    have hproduct' : (ordered a a).1.mul (ordered a a).2 = .ok p := by
      rw [hordered]
      exact hproduct
    rw [← natAbs_product hproduct', ← Dec.natAbs_ofAmount] at hfits
    obtain ⟨m, hscaled⟩ := (Dec.exists_mul_iff _ _).2 hfits
    exact ⟨p, hproduct', width, hwidth, m, hscaled, hzero⟩

/-- **When the liquidity that two amounts back divides by zero**: at the upper end of the range,
unless the amount of the first token is too large. -/
theorem ofAmounts_eq_divisionByZero_iff (h : a.raw < b.raw) :
    ofAmounts price a b n0 n1 = .error .divisionByZero ↔
      price = b ∧ b.raw.natAbs * b.raw.natAbs < Dec.wordSize ∧
        n0.toNat * Dec.scale * product b.raw b.raw < Dec.wordSize := by
  have hordered : ordered a b = (a, b) := if_neg (Int.not_lt.2 (Int.le_of_lt h))
  rw [ofAmounts, hordered]
  dsimp only
  split
  next hbelow =>
    have hne : a ≠ b := fun heq => by rw [heq] at h; exact Int.lt_irrefl _ h
    have hne' : price ≠ b := fun heq => by rw [heq] at hbelow; exact Int.not_le.2 h hbelow
    rw [ofAmount0_eq_divisionByZero_iff]
    exact iff_of_false (fun h => hne h.1) fun h => hne' h.1
  next hbelow =>
    split
    next hin =>
      have hne : price ≠ a := fun heq => hbelow (heq ▸ Int.le_refl _)
      -- behind the first quotient only the width below the price is left, which is not zero
      have hsecond (from0 : Dec) : (do
          let from1 ← ofAmount1 n1 price a
          .ok (min from0 from1) : Except MathError Dec) ≠ .error .divisionByZero := by
        intro hfail
        obtain hfail | ⟨_, -, hfail⟩ := bind_eq_error_iff.1 hfail
        · exact hne (ofAmount1_eq_divisionByZero_iff.1 hfail)
        · cases hfail
      rw [bind_eq_error_iff, or_iff_left, ofAmount0_eq_divisionByZero_iff]
      · exact and_congr_right fun heq => by rw [heq]
      · rintro ⟨from0, -, hfail⟩
        exact hsecond from0 hfail
    next hin =>
      have hne : b ≠ a := fun heq => by rw [heq] at h; exact Int.lt_irrefl _ h
      have hne' : price ≠ b := fun heq => hin (heq ▸ Int.le_refl _)
      rw [ofAmount1_eq_divisionByZero_iff]
      exact iff_of_false hne fun h => hne' h.1

/-- What liquidity takes of the first token divides by zero only where the product of the roots
rounds to zero. -/
theorem product_eq_zero_of_amount0 (h : amount0 liquidity a b = .error .divisionByZero) :
    product a.raw b.raw = 0 := by
  rw [amount0] at h
  simp only [(Dec.mul_never_divides _ _).bind_eq_error_iff_of,
    (Dec.sub_never_divides _ _).bind_eq_error_iff_of, Dec.quo_eq_divisionByZero_iff] at h
  obtain ⟨_, -, p, hproduct, _, -, hzero⟩ := h
  rw [← natAbs_product hproduct, hzero, Int.natAbs_zero]

/-- What liquidity takes of the second token does not divide. -/
theorem amount1_never_divides (liquidity a b : Dec) :
    FailsOnly (amount1 liquidity a b) (· ≠ .divisionByZero) :=
  failsOnly_amount1 (by simp) liquidity a b

/-- Where the first token backs some liquidity, the product of the roots is not zero. -/
theorem product_pos_of_backed (h : ofAmount0 n a b = .ok liquidity)
    (hpositive : 0 < liquidity.raw) : 0 < product a.raw b.raw := by
  obtain ⟨-, hbacked⟩ := natAbs_ofAmount0 h
  rcases Nat.eq_zero_or_pos (product a.raw b.raw) with hzero | hpos
  · rw [hzero, Nat.mul_zero, Nat.zero_mul, Rounding.quotient_zero] at hbacked
    omega
  · exact hpos

end Liquidity

/-! ### Amounts of liquidity that is backed -/

section

open Liquidity

variable {p : Pool} {lower upper : Tick} {a b liquidity : Dec} {n0 n1 : Amount}

/-- What amounts divide by zero for: a product that rounds to zero, of the square roots between
which the liquidity takes the first token. -/
theorem Pool.product_eq_zero_of_amounts
    (h : p.amounts lower upper a b liquidity = .error .divisionByZero) :
    (p.InRange lower upper ∧ product p.sqrtPrice.raw b.raw = 0) ∨
      (p.tick < lower ∧ product a.raw b.raw = 0) := by
  rw [Pool.amounts] at h
  split at h
  next hin =>
    refine .inl ⟨hin, ?_⟩
    obtain hfail | ⟨amount0, -, hfail⟩ := bind_eq_error_iff.1 h
    · exact product_eq_zero_of_amount0 hfail
    · rw [(amount1_never_divides _ _ _).bind_eq_error_iff_of] at hfail
      obtain ⟨_, -, hfail⟩ := hfail
      cases hfail
  next hout =>
    split at h
    next hbelow =>
      refine .inr ⟨hbelow, ?_⟩
      obtain hfail | ⟨_, -, hfail⟩ := bind_eq_error_iff.1 h
      · exact product_eq_zero_of_amount0 hfail
      · cases hfail
    next habove =>
      rw [(amount1_never_divides _ _ _).bind_eq_error_iff_of] at h
      obtain ⟨_, -, hfail⟩ := h
      cases hfail

/-- **The amounts of liquidity that is backed never divide by zero**, at a price that is that of the
current tick. -/
theorem Pool.amounts_ne_divisionByZero (hprice : p.tick.sqrtPrice = .ok p.sqrtPrice)
    (ha : lower.sqrtPrice = .ok a) (hb : upper.sqrtPrice = .ok b) (hordered : a.raw < b.raw)
    (hback : ofAmounts p.sqrtPrice a b n0 n1 = .ok liquidity) (hpositive : 0 < liquidity.raw) :
    p.amounts lower upper a b liquidity ≠ .error .divisionByZero := by
  intro hfail
  have horder : ordered a b = (a, b) := if_neg (Int.not_lt.2 (Int.le_of_lt hordered))
  have hcases := ofAmounts_cases hback
  simp only [horder] at hcases
  obtain ⟨hin, hzero⟩ | ⟨hbelow, hzero⟩ := Pool.product_eq_zero_of_amounts hfail
  · have hleft := Tick.sqrtPrice_mono ha hprice hin.1
    have hright := Tick.sqrtPrice_mono hprice hb (Int.le_of_lt hin.2)
    obtain ⟨hle, h0⟩ | ⟨-, -, from0, from1, h0, -, hle, -⟩ | ⟨hgt, -⟩ := hcases
    · -- the price is that of the lower boundary
      have hroot : p.sqrtPrice.raw = a.raw := by omega
      have hpos := product_pos_of_backed h0 hpositive
      rw [← hroot, hzero] at hpos
      exact Nat.lt_irrefl 0 hpos
    · have hpos := product_pos_of_backed h0 (Int.lt_of_lt_of_le hpositive hle)
      rw [hzero] at hpos
      exact Nat.lt_irrefl 0 hpos
    · omega
  · have hleft := Tick.sqrtPrice_mono hprice ha (Int.le_of_lt hbelow)
    obtain ⟨-, h0⟩ | ⟨hgt, -⟩ | ⟨hgt, -⟩ := hcases
    · have hpos := product_pos_of_backed h0 hpositive
      rw [hzero] at hpos
      exact Nat.lt_irrefl 0 hpos
    · omega
    · omega

end

/-! ### Deposits -/

/-- The square of the square root of a price of a tick fits the word. -/
theorem Tick.natAbs_mul_natAbs_lt {t : Tick} {root : Dec} (h : t.sqrtPrice = .ok root) :
    root.raw.natAbs * root.raw.natAbs < Dec.wordSize := by
  obtain ⟨hbounds, hroot, -⟩ := sqrtPrice_eq_ok_iff.1 h
  have hmax := sqrtPriceRaw_le hbounds.natAbs_le
  have hfits : 10 ^ 38 * 10 ^ 38 < Dec.wordSize := by decide
  rw [hroot, Int.natAbs_natCast]
  exact Nat.lt_of_le_of_lt (Nat.mul_le_mul hmax hmax) hfits

namespace Operation

variable {s : Store} {now : Timestamp} {c : Config} {d : Deposit} {p : Pool} {a b : Dec}

/-- A set of incentives is not refused for its arithmetic. -/
theorem failsOnly_checkIncentives {kind : LedgerError → Prop}
    (h : ∀ id incentive, kind (.incentiveNotFound id incentive)) (p : Pool)
    (ids : OrderedSet IncentiveId) : FailsOnly (p.checkIncentives ids) kind := by
  rw [Pool.checkIncentives]
  split
  next id _ => exact .error (h p.id id)
  next => exact .ok ()

section

variable (hprice : p.tick.sqrtPrice = .ok p.sqrtPrice) (ha : d.lower.sqrtPrice = .ok a)
  (hb : d.upper.sqrtPrice = .ok b) (hordered : a.raw < b.raw)

include hprice ha hb hordered

/-- **What a deposit comes to** divides by zero where the liquidity that it backs does. -/
theorem quote_eq_divisionByZero_iff :
    quote p d = .error (.math .divisionByZero) ↔
      Liquidity.ofAmounts p.sqrtPrice a b d.amount0 d.amount1 = .error .divisionByZero := by
  constructor
  · contrapose
    intro hbacks hfail
    have hcause (m : MathError) (hm : m ≠ .divisionByZero) :
        LedgerError.math m ≠ .math .divisionByZero := fun h => hm (LedgerError.math.inj h)
    have htruncate (x : Dec) : FailsOnly x.truncate (· ≠ .divisionByZero) :=
      x.failsOnly_truncate (by simp) (by simp)
    have hbacked : FailsOnly (Liquidity.ofAmounts p.sqrtPrice a b d.amount0 d.amount1)
        (· ≠ .divisionByZero) := fun e h he => hbacks (he ▸ h)
    have hquote : FailsOnly (quote p d) (· ≠ .math .divisionByZero) := by
      rw [quote, ha, hb]
      refine .bind_of (.ok a) fun a' ha' => .bind_of (.ok b) fun b' hb' => ?_
      cases ha'
      cases hb'
      refine .bind_of (.mapError_of hbacked hcause) fun liquidity hback =>
        .guard (by simp) fun hpositive => ?_
      rw [mapError_eq_ok_iff] at hback
      rw [Bool.not_eq_true', Bool.not_eq_false] at hpositive
      have hamounts : FailsOnly (p.amounts d.lower d.upper a b liquidity) (· ≠ .divisionByZero) :=
        fun e h he => Pool.amounts_ne_divisionByZero hprice ha hb hordered hback
          (of_decide_eq_true hpositive) (he ▸ h)
      exact .bind (.mapError_of hamounts hcause) fun amounts =>
        .bind (.mapError_of (htruncate _) hcause) fun amount0 =>
        .bind (.mapError_of (htruncate _) hcause) fun amount1 =>
        .guard (by simp) fun _ => .guard (by simp) fun _ => .ok _
    exact hquote _ hfail rfl
  · intro hback
    rw [quote, ha, hb]
    change (Except.mapError LedgerError.math
      (Liquidity.ofAmounts p.sqrtPrice a b d.amount0 d.amount1) >>= _) = _
    rw [hback]
    rfl

end

/-- The boundaries of a range that a pool admits have square roots of prices in the order of the
ticks, if they are not one. -/
theorem sqrtPrice_lt_of_checkRange (hrange : p.checkRange c d.lower d.upper = .ok ())
    (ha : d.lower.sqrtPrice = .ok a) (hb : d.upper.sqrtPrice = .ok b) (hne : a ≠ b) :
    a.raw < b.raw := by
  obtain ⟨-, -, -, hlt, -⟩ := Pool.checkRange_eq_ok_iff.1 hrange
  have hle := Tick.sqrtPrice_mono ha hb (Int.le_of_lt hlt)
  have hraws : a.raw ≠ b.raw := fun h => hne (Dec.ext h)
  omega

/-- A deposit into a priced pool that accepts its range and its incentives divides by zero only for
what it comes to: behind the quote there are no quotients. -/
theorem deposit_eq_divisionByZero_iff_quote (hp : s.pools.get? d.pool = some p)
    (hpriced : p.isUnpriced = false) (hrange : p.checkRange c d.lower d.upper = .ok ())
    (hids : p.checkIncentives d.incentives = .ok ()) :
    ((deposit now c d).run s).1 = .error (.math .divisionByZero) ↔
      quote p d = .error (.math .divisionByZero) := by
  rw [deposit, run_bind_of_ok (run_pool_eq_ok_iff.2 ⟨hp, rfl⟩),
    run_bind_of_ok (run_lift_eq_ok_iff.2 ⟨hrange, rfl⟩),
    run_bind_of_ok (run_lift_eq_ok_iff.2 ⟨hids, rfl⟩),
    run_bind_of_ok (pricedPool_eq_ok_iff.2 (.inr ⟨hpriced, rfl, rfl⟩))]
  cases hoffer : quote p d with
  | error e =>
    rw [run_bind]
    change Except.error e = _ ↔ _
    simp
  | ok r =>
    rw [run_bind_of_ok (run_lift_eq_ok_iff.2 ⟨rfl, rfl⟩)]
    refine iff_of_false (fun hfail => ?_) (by simp)
    refine (?hrest : RefusesOnly _ (· ≠ .math .divisionByZero)) s _ _ (Prod.ext hfail rfl) rfl
    have hsums (m : MathError) (hm : m.OfSums) : LedgerError.math m ≠ .math .divisionByZero := by
      rintro ⟨⟩
      exact hm
    have hchange (position : Position) :
        (changePosition now position r.liquidity).RefusesOnly (· ≠ .math .divisionByZero) :=
      .changePosition hsums (by simp) (by simp) now r.liquidity
    refine .bind (.findPosition d.key) fun found => ?_
    cases found with
    | none => exact .bind (.pure _) fun position => .bind (hchange position) fun _ => .pure r
    | some existing =>
      have hcommitted : FailsOnly (existing.checkCommitment d.incentives)
          (· ≠ .math .divisionByZero) :=
        existing.failsOnly_checkCommitment (by simp) d.incentives
      exact .bind (.lift hcommitted) fun _ => .bind (.pure existing) fun position =>
        .bind (hchange position) fun _ => .pure r

/-- **When a deposit divides by zero.** Let a pool have the price of its current tick, and let it
admit a range whose boundaries have different square roots of prices. Then a deposit into the range
divides by zero exactly when its incentives are accepted, the square root of the price is that of
the upper boundary, and the amount of the first token is not so large that the product to be divided
is out of range. Wherever else the price lies no deposit divides by zero. -/
theorem deposit_eq_divisionByZero_iff (hp : s.pools.get? d.pool = some p)
    (hprice : p.tick.sqrtPrice = .ok p.sqrtPrice)
    (hrange : p.checkRange c d.lower d.upper = .ok ()) (ha : d.lower.sqrtPrice = .ok a)
    (hb : d.upper.sqrtPrice = .ok b) (hne : a ≠ b) :
    ((deposit now c d).run s).1 = .error (.math .divisionByZero) ↔
      p.checkIncentives d.incentives = .ok () ∧ p.sqrtPrice = b ∧
        d.amount0.toNat * Dec.scale * Liquidity.product b.raw b.raw < Dec.wordSize := by
  have hordered := sqrtPrice_lt_of_checkRange hrange ha hb hne
  have hpriced : p.isUnpriced = false :=
    Pool.isUnpriced_eq_false_of_pos (Tick.sqrtPrice_eq_ok_iff.1 hprice).2.2
  cases hids : p.checkIncentives d.incentives with
  | error e =>
    have hother : FailsOnly (p.checkIncentives d.incentives) (· ≠ .math .divisionByZero) :=
      failsOnly_checkIncentives (by simp) p d.incentives
    have hcause := hother e hids
    refine iff_of_false ?_ (by simp)
    rw [deposit, run_bind_of_ok (run_pool_eq_ok_iff.2 ⟨hp, rfl⟩),
      run_bind_of_ok (run_lift_eq_ok_iff.2 ⟨hrange, rfl⟩), hids, run_bind]
    change Except.error e ≠ _
    simpa using hcause
  | ok =>
    have hfits := Tick.natAbs_mul_natAbs_lt hb
    rw [deposit_eq_divisionByZero_iff_quote hp hpriced hrange hids,
      quote_eq_divisionByZero_iff hprice ha hb hordered,
      Liquidity.ofAmounts_eq_divisionByZero_iff hordered]
    simp only [hfits, true_and]

end Operation

namespace Sample

/-- A deposit around the first price, and a move of the price to a tick. -/
def movedTo (n : Int) : Ledger := ledger.after [.deposit (deposit 500 500 (-10) 10), swap n]

/-- The ends of the range have square roots of prices, and not the same one. -/
theorem exists_roots :
    ∃ a b, (tick (-10)).sqrtPrice = .ok a ∧ (tick 10).sqrtPrice = .ok b ∧ a ≠ b := by
  obtain ⟨a, ha, hlow⟩ : ∃ a, (tick (-10)).sqrtPrice = .ok a ∧ a < Dec.one :=
    exists_ok_of_any (by decide +kernel)
  obtain ⟨b, hb, hhigh⟩ : ∃ b, (tick 10).sqrtPrice = .ok b ∧ Dec.one < b :=
    exists_ok_of_any (by decide +kernel)
  refine ⟨a, b, ha, hb, ?_⟩
  rintro rfl
  rw [Dec.lt_def] at hlow hhigh
  omega

end Sample

namespace Operation

/-- At the price of the lower boundary a deposit does not divide by zero. -/
theorem deposit_eq_divisionByZero_iff_sample :
    ((deposit Timestamp.zero Config.standard (Sample.deposit 500 500 (-10) 10)).run
      (Sample.movedTo (-10)).store).1 ≠ .error (.math .divisionByZero) := by
  have hpool : ((Sample.movedTo (-10)).store.pools.get? Sample.pool.id).any (fun p =>
      p.tick.sqrtPrice = .ok p.sqrtPrice ∧
        p.checkRange Config.standard (Sample.tick (-10)) (Sample.tick 10) = .ok () ∧
        some p.sqrtPrice ≠ (Sample.tick 10).sqrtPrice.toOption) = true := by decide +kernel
  obtain ⟨p, hp, hfound⟩ := (Option.any_eq_true _ _).1 hpool
  obtain ⟨hprice, hrange, haway⟩ := of_decide_eq_true hfound
  obtain ⟨a, b, ha, hb, hne⟩ := Sample.exists_roots
  rw [Ne, deposit_eq_divisionByZero_iff (d := Sample.deposit 500 500 (-10) 10) hp hprice hrange ha
    hb hne]
  rintro ⟨-, heq, -⟩
  rw [heq, hb] at haway
  exact haway rfl

/-- **A deposit that divides by zero**: its range is admitted, its boundaries have different square
roots of prices, and the price of the pool has moved to its upper boundary. -/
theorem deposit_at_upper_boundary :
    ∃ p a b, (Sample.movedTo 10).store.pools.get? Sample.pool.id = some p ∧
      p.tick.sqrtPrice = .ok p.sqrtPrice ∧
      p.checkRange Config.standard (Sample.tick (-10)) (Sample.tick 10) = .ok () ∧
      (Sample.tick (-10)).sqrtPrice = .ok a ∧ (Sample.tick 10).sqrtPrice = .ok b ∧ a ≠ b ∧
      ((deposit Timestamp.zero Config.standard (Sample.deposit 500 500 (-10) 10)).run
        (Sample.movedTo 10).store).1 = .error (.math .divisionByZero) := by
  have hpool : ((Sample.movedTo 10).store.pools.get? Sample.pool.id).any (fun p =>
      p.tick.sqrtPrice = .ok p.sqrtPrice ∧
        p.checkRange Config.standard (Sample.tick (-10)) (Sample.tick 10) = .ok ()) = true := by
    decide +kernel
  obtain ⟨p, hp, hfound⟩ := (Option.any_eq_true _ _).1 hpool
  obtain ⟨hprice, hrange⟩ := of_decide_eq_true hfound
  obtain ⟨a, b, ha, hb, hne⟩ := Sample.exists_roots
  exact ⟨p, a, b, hp, hprice, hrange, ha, hb, hne, by decide +kernel⟩

end Operation

end RangeLedger
