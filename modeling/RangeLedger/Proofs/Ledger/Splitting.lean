import RangeLedger.Proofs.Ledger.Commutation
import RangeLedger.Proofs.Ledger.Offers
import RangeLedger.Proofs.Operation.Prices

/-!
# Withdrawing in parts

An owner can withdraw liquidity at once or in parts. The amounts are rounded to the nearest decimal
before they are truncated, so that a part which is worth just short of a whole unit is paid that
unit, and what the parts fall short of together can be too much for the whole to be paid as many.
More than one unit cannot be gained, and nothing is gained unless a part was paid more than it is
worth.

## Main results

* `Pool.units_add_le`: parts that are paid no more than they are worth gain nothing.
* `Ledger.split_withdrawal`: what two withdrawals pay against one.
* `Ledger.split_withdrawal_gains`: parts that are paid more than the whole, in each of the tokens.
-/

namespace RangeLedger

open Liquidity

/-! ### Units and worth -/

namespace Liquidity

/-- Units of the first token that are worth no more than a liquidity are within its units. -/
theorem le_units0 {x y : Int} {l n : Nat} (hpos : 0 < product x y)
    (h : n * product x y * Dec.scale ≤ l * width x y) : n ≤ units0 l x y := by
  have hspread : n * product x y ≤ spread l x y := by
    have hmono := Rounding.halfEven_mono h Dec.scale
    rwa [Rounding.quotient_mul _ Dec.scale_pos] at hmono
  have hquotient : n * Dec.scale ≤
      Rounding.halfEven.quotient (spread l x y * Dec.scale) (product x y) := by
    have hscaled : n * Dec.scale * product x y ≤ spread l x y * Dec.scale := by
      rw [Nat.mul_right_comm]
      exact Nat.mul_le_mul_right _ hspread
    have hmono := Rounding.halfEven_mono hscaled (product x y)
    rwa [Rounding.quotient_mul _ hpos] at hmono
  exact (Nat.le_div_iff_mul_le Dec.scale_pos).2 hquotient

/-- Units of the second token that are worth no more than a liquidity are within its units. -/
theorem le_units1 {x y : Int} {l n : Nat} (h : n * Dec.scale * Dec.scale ≤ l * width x y) :
    n ≤ units1 l x y := by
  have hspread : n * Dec.scale ≤ spread l x y := by
    have hmono := Rounding.halfEven_mono h Dec.scale
    rwa [Rounding.quotient_mul _ Dec.scale_pos] at hmono
  exact (Nat.le_div_iff_mul_le Dec.scale_pos).2 hspread

end Liquidity

namespace Pool

variable {p : Pool} {lower upper : Tick} {side : Side}

/-- The width of the part of a range above the price, over which the first token is taken. -/
def widthAbove (p : Pool) (lower upper : Tick) : Nat :=
  width (p.split lower upper) (Tick.sqrtPriceRaw upper.val)

/-- A liquidity is paid more of a token than it is worth: its units, times what one unit is divided
by, exceed the product of the liquidity and the width. -/
def Overpays (p : Pool) (side : Side) (lower upper : Tick) (liquidity : Nat) : Prop :=
  match side with
  | .token0 => liquidity * p.widthAbove lower upper <
      p.units .token0 lower upper liquidity * p.productAbove lower upper * Dec.scale
  | .token1 => liquidity * p.widthBelow lower upper <
      p.units .token1 lower upper liquidity * Dec.scale * Dec.scale

instance (p : Pool) (side : Side) (lower upper : Tick) (liquidity : Nat) :
    Decidable (p.Overpays side lower upper liquidity) :=
  match side with
  | .token0 => inferInstanceAs (Decidable (_ < _))
  | .token1 => inferInstanceAs (Decidable (_ < _))

/-- **Parts gain nothing** together if none of them is paid more than it is worth. -/
theorem units_add_le {l l' : Nat} (h : ¬p.Overpays side lower upper l)
    (h' : ¬p.Overpays side lower upper l') :
    p.units side lower upper l + p.units side lower upper l' ≤
      p.units side lower upper (l + l') := by
  cases side with
  | token0 =>
    rcases Nat.eq_zero_or_pos (p.productAbove lower upper) with hzero | hpos
    · have hnone (n : Nat) : p.units .token0 lower upper n = 0 :=
        units0_of_product_eq_zero hzero n
      simp only [hnone, Nat.le_refl]
    · refine le_units0 hpos ?_
      change (p.units .token0 lower upper l + p.units .token0 lower upper l') *
        p.productAbove lower upper * Dec.scale ≤ (l + l') * p.widthAbove lower upper
      rw [Nat.add_mul, Nat.add_mul, Nat.add_mul]
      exact Nat.add_le_add (Nat.not_lt.1 h) (Nat.not_lt.1 h')
  | token1 =>
    refine le_units1 ?_
    change (p.units .token1 lower upper l + p.units .token1 lower upper l') * Dec.scale *
      Dec.scale ≤ (l + l') * p.widthBelow lower upper
    rw [Nat.add_mul, Nat.add_mul, Nat.add_mul]
    exact Nat.add_le_add (Nat.not_lt.1 h) (Nat.not_lt.1 h')

end Pool

/-! ### Withdrawals in units -/

/-- The amount of one of the two tokens. -/
def Side.amount (side : Side) (out : Amount × Amount) : Amount :=
  match side with
  | .token0 => out.1
  | .token1 => out.2

/-- **A withdrawal** pays the units that its liquidity is worth at the price of the pool, and leaves
that price. -/
theorem Operation.withdraw_units {s s' : Store} {now : Timestamp} {c : Config} {w : Withdrawal}
    {out : Amount × Amount} (h : (withdraw now c w).run s = (.ok out, s')) :
    0 < w.liquidity.raw ∧ ∃ p, s.pools.get? w.pool = some p ∧
      (∀ side : Side,
        (side.amount out).toNat = p.units side w.lower w.upper w.liquidity.raw.toNat) ∧
      ∀ p', s'.pools.get? w.pool = some p' → p'.units = p.units := by
  obtain ⟨p, _, amounts, hp, -, -, -, hpositive, -, hrelease, h0, h1, hs⟩ := withdraw_effect h
  obtain ⟨hunits0, hunits1⟩ := release_units hpositive hrelease h0 h1
  refine ⟨hpositive, p, hp, fun side => ?_, fun p' hp' => ?_⟩
  · cases side with
    | token0 => exact hunits0
    | token1 => exact hunits1
  · have heq := hs.pool_eq hp hp'
    exact Pool.units_congr (by rw [heq]) (by rw [heq])

namespace Ledger

variable {l l₁ l₂ l₃ : Ledger}

/-- **Withdrawing in two parts** pays, of each token, at most one unit more than withdrawing the
same liquidity at once from the same ledger; and it pays no more at all if neither part is paid more
of that token than it is worth. -/
theorem split_withdrawal {w : Withdrawal} {x y z : Dec} (hsum : z.raw = x.raw + y.raw)
    {first second whole : Amount × Amount}
    (hfirst : (withdraw { w with liquidity := x }).run l = (.ok first, l₁))
    (hsecond : (withdraw { w with liquidity := y }).run l₁ = (.ok second, l₂))
    (hwhole : (withdraw { w with liquidity := z }).run l = (.ok whole, l₃)) :
    ∃ p, l.store.pools.get? w.pool = some p ∧ ∀ side : Side,
      (side.amount first).toNat + (side.amount second).toNat ≤ (side.amount whole).toNat + 1 ∧
      (¬p.Overpays side w.lower w.upper x.raw.toNat →
        ¬p.Overpays side w.lower w.upper y.raw.toNat →
        (side.amount first).toNat + (side.amount second).toNat ≤ (side.amount whole).toNat) := by
  obtain ⟨s₁, _, _, _, hrun, -, -, rfl⟩ := withdraw_eq_ok hfirst
  obtain ⟨s₂, _, _, _, hrun', -, -, rfl⟩ := withdraw_eq_ok hsecond
  obtain ⟨s₃, _, _, _, hrun'', -, -, rfl⟩ := withdraw_eq_ok hwhole
  obtain ⟨hx, p, hp, hunits, hkept⟩ := Operation.withdraw_units hrun
  obtain ⟨hy, q, hq, hunits', -⟩ := Operation.withdraw_units hrun'
  obtain ⟨-, p', hp', hunits'', -⟩ := Operation.withdraw_units hrun''
  obtain rfl : p' = p := Option.some.inj (hp'.symm.trans hp)
  refine ⟨p', hp, fun side => ?_⟩
  have hx : 0 < x.raw := hx
  have hy : 0 < y.raw := hy
  have hnat : z.raw.toNat = x.raw.toNat + y.raw.toNat := by omega
  have hpart : (side.amount first).toNat = p'.units side w.lower w.upper x.raw.toNat :=
    hunits side
  have hrest : (side.amount second).toNat = p'.units side w.lower w.upper y.raw.toNat := by
    rw [← hkept q hq]
    exact hunits' side
  have hall : (side.amount whole).toNat = p'.units side w.lower w.upper z.raw.toNat :=
    hunits'' side
  rw [hpart, hrest, hall, hnat]
  exact ⟨(p'.units_merge side w.lower w.upper _ _).2, fun h h' => Pool.units_add_le h h'⟩

/-- Withdrawing two liquidities one after the other pays more of a token than withdrawing both at
once. -/
def GainsBySplitting (l : Ledger) (side : Side) (w : Withdrawal) (x y z : Dec) : Prop :=
  z.raw = x.raw + y.raw ∧ ∃ first l₁ second l₂ whole l₃,
    (withdraw { w with liquidity := x }).run l = (.ok first, l₁) ∧
    (withdraw { w with liquidity := y }).run l₁ = (.ok second, l₂) ∧
    (withdraw { w with liquidity := z }).run l = (.ok whole, l₃) ∧
    (side.amount whole).toNat < (side.amount first).toNat + (side.amount second).toNat

/-- What two withdrawals pay, one after the other. -/
def payouts (w w' : Withdrawal) : Call ((Amount × Amount) × (Amount × Amount)) := do
  let first ← withdraw w
  let second ← withdraw w'
  return (first, second)

/-- A gain that is found by evaluation. -/
theorem gainsBySplitting_of_any {side : Side} {w : Withdrawal} {x y z : Dec}
    (hsum : z.raw = x.raw + y.raw)
    (h : ((payouts { w with liquidity := x } { w with liquidity := y }).run l).1.toOption.any
      (fun parts => decide (((withdraw { w with liquidity := z }).run l).1.toOption.any
        (fun whole => decide ((side.amount whole).toNat <
          (side.amount parts.1).toNat + (side.amount parts.2).toNat)) = true)) = true) :
    l.GainsBySplitting side w x y z := by
  obtain ⟨⟨first, second⟩, l₂, hparts, h⟩ := Call.exists_of_any h
  obtain ⟨whole, l₃, hwhole, hless⟩ := Call.exists_of_any h
  obtain ⟨_, l₁, hfirst, hparts⟩ := Call.run_bind_eq_ok_iff.1 hparts
  obtain ⟨_, _, hsecond, hparts⟩ := Call.run_bind_eq_ok_iff.1 hparts
  cases hparts
  exact ⟨hsum, first, l₁, second, l₂, whole, l₃, hfirst, hsecond, hwhole, hless⟩

end Ledger

namespace Sample

/-- The ledger after a deposit. -/
def deposited (amount0 amount1 lower upper : Int) : Ledger :=
  ledger.after [.deposit (deposit amount0 amount1 lower upper)]

/-- A withdrawal of the owner, of a liquidity that is given as a raw integer. -/
def withdrawal (lower upper liquidity : Int) : Withdrawal where
  pool := pool.id
  owner := owner
  lower := tick lower
  upper := tick upper
  liquidity := Dec.wrap liquidity
  incentives := Table.empty

end Sample

namespace Ledger

/-- A position around the price that is withdrawn in two uneven parts. -/
theorem split_withdrawal_sample :
    ∃ first l₁ second l₂ whole l₃,
      (withdraw (Sample.withdrawal (-10) 10 333333333333333333333333)).run
        (Sample.deposited 500 500 (-10) 10) = (.ok first, l₁) ∧
      (withdraw (Sample.withdrawal (-10) 10 500000000000000000000001)).run l₁ =
        (.ok second, l₂) ∧
      (withdraw (Sample.withdrawal (-10) 10 833333333333333333333334)).run
        (Sample.deposited 500 500 (-10) 10) = (.ok whole, l₃) ∧
      ∀ side : Side, (side.amount first).toNat + (side.amount second).toNat ≤
        (side.amount whole).toNat := by
  obtain ⟨first, l₁, second, l₂, hfirst, hsecond⟩ : ∃ first l₁ second l₂,
      (withdraw (Sample.withdrawal (-10) 10 333333333333333333333333)).run
        (Sample.deposited 500 500 (-10) 10) = (.ok first, l₁) ∧
      (withdraw (Sample.withdrawal (-10) 10 500000000000000000000001)).run l₁ =
        (.ok second, l₂) :=
    Call.exists_of_isSome (by decide +kernel) (by decide +kernel)
  obtain ⟨whole, l₃, hwhole, -⟩ : ∃ whole l₃,
      (withdraw (Sample.withdrawal (-10) 10 833333333333333333333334)).run
        (Sample.deposited 500 500 (-10) 10) = (.ok whole, l₃) ∧ True :=
    Call.exists_of_any (by decide +kernel)
  have hfair (side : Side) :
      ((Sample.deposited 500 500 (-10) 10).store.pools.get? Sample.pool.id).all (fun p =>
        ¬p.Overpays side (Sample.tick (-10)) (Sample.tick 10)
          (Dec.wrap 333333333333333333333333).raw.toNat ∧
        ¬p.Overpays side (Sample.tick (-10)) (Sample.tick 10)
          (Dec.wrap 500000000000000000000001).raw.toNat) = true := by
    cases side with
    | token0 => decide +kernel
    | token1 => decide +kernel
  have hsum : (Dec.wrap 833333333333333333333334).raw =
      (Dec.wrap 333333333333333333333333).raw + (Dec.wrap 500000000000000000000001).raw := by
    decide +kernel
  obtain ⟨p, hp, hsplit⟩ :=
    split_withdrawal (w := Sample.withdrawal (-10) 10 0) hsum hfirst hsecond hwhole
  refine ⟨first, l₁, second, l₂, whole, l₃, hfirst, hsecond, hwhole, fun side => ?_⟩
  have hp : (Sample.deposited 500 500 (-10) 10).store.pools.get? Sample.pool.id = some p := hp
  have hparts := hfair side
  rw [hp] at hparts
  obtain ⟨hx, hy⟩ := of_decide_eq_true hparts
  exact (hsplit side).2 hx hy

/-- **Parts that are paid more than the whole**, of either token: each half is worth just short of a
unit, and is paid it, while what both fall short of is too much for the whole. -/
theorem split_withdrawal_gains :
    Sample.ledger.store.IsFresh ∧
    (Sample.deposited 500 500 10000 12000).GainsBySplitting .token0
      (Sample.withdrawal 10000 12000 0) (Dec.wrap 17325700938183810500)
      (Dec.wrap 17325700938183810500) (Dec.wrap 34651401876367621000) ∧
    (Sample.deposited 1 5000 0 2).GainsBySplitting .token1
      (Sample.withdrawal 0 2 0) (Dec.wrap 9999999999999999997000)
      (Dec.wrap 9999999999999999997000) (Dec.wrap 19999999999999999994000) := by
  refine ⟨Sample.ledger_isFresh, ?_, ?_⟩
  · exact gainsBySplitting_of_any (by decide +kernel) (by decide +kernel)
  · exact gainsBySplitting_of_any (by decide +kernel) (by decide +kernel)

end Ledger

end RangeLedger
