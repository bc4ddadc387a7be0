import RangeLedger.Proofs.Ledger.Atomicity
import RangeLedger.Proofs.Ledger.Offers
import RangeLedger.Proofs.Operation.Prices

/-!
# The first deposit into a pool

The first deposit into a pool has to offer both tokens, because its offer sets the price. What is
asked of the offer is not asked of the amounts that are used. They follow from the price that was
just set and from the range: the first token is used above the price and the second below it, each
in whole units, and a range may lie on one side of the price. So a first deposit can end with one
token alone in the pool, and the minima are there for owners who do not want that.

A pool stays without a price until a deposit on it is accepted, whatever else is asked of the
ledger: accepted or refused, changes of ticks and crossings among it, and deposits into other pools.

## Main results

* `Pool.costsUnit_iff`: when a liquidity is worth a whole unit of a token.
* `Ledger.noPrice_after`: a pool has no price before its first deposit.
* `Ledger.first_deposit`: what the first deposit offers, sets and uses.
* `Ledger.first_deposit_of_one_token`: a first deposit that uses one token alone.
-/

namespace RangeLedger

/-! ### Whole units -/

namespace Pool

variable {p : Pool} {lower upper : Tick}

/-- A liquidity costs a unit of a token: as a fraction its cost comes within half of a last digit of
one unit. -/
def CostsUnit (p : Pool) (side : Side) (lower upper : Tick) (liquidity : Nat) : Prop :=
  match side with
  | .token0 => 0 < p.productAbove lower upper ∧
      2 * (Dec.scale * p.productAbove lower upper) ≤
        2 * (Dec.scale * p.spreadAbove lower upper liquidity) + p.productAbove lower upper
  | .token1 => 2 * (Dec.scale * Dec.scale) ≤ 2 * (liquidity * p.widthBelow lower upper) + Dec.scale

instance (p : Pool) (side : Side) (lower upper : Tick) (liquidity : Nat) :
    Decidable (p.CostsUnit side lower upper liquidity) :=
  match side with
  | .token0 => inferInstanceAs (Decidable (_ ∧ _))
  | .token1 => inferInstanceAs (Decidable (_ ≤ _))

/-- **A liquidity is worth a whole unit** of a token when it costs one. -/
theorem costsUnit_iff (p : Pool) (side : Side) (lower upper : Tick) (liquidity : Nat) :
    p.CostsUnit side lower upper liquidity ↔ 0 < p.units side lower upper liquidity := by
  cases side with
  | token0 =>
    -- a quotient by a product of zero comes to less than a unit
    rcases Nat.eq_zero_or_pos (p.productAbove lower upper) with hzero | hpos
    · have hunits : p.units .token0 lower upper liquidity = 0 :=
        Liquidity.units0_of_product_eq_zero hzero liquidity
      simp only [CostsUnit, hunits, hzero, Nat.lt_irrefl, false_and]
    · have hle : p.units .token0 lower upper liquidity ≤ 0 ↔ _ :=
        Liquidity.units0_le_iff hpos liquidity 0
      rw [← Nat.not_le, hle, Nat.not_lt, Nat.zero_add, Nat.mul_one]
      exact and_iff_right hpos
  | token1 =>
    have hle : p.units .token1 lower upper liquidity ≤ 0 ↔ _ :=
      Liquidity.units1_le_iff liquidity _ _ 0
    rw [← Nat.not_le, hle, Nat.not_lt, Nat.zero_add, Nat.mul_one]
    exact Iff.rfl

/-- Above a range there is none of the first token. -/
theorem units_of_le (hordered : lower < upper) (h : upper ≤ p.tick) (liquidity : Nat) :
    p.units .token0 lower upper liquidity = 0 := by
  have hlower : ¬p.tick < lower := Int.not_lt.2 (Int.le_of_lt (Int.lt_of_lt_of_le hordered h))
  rw [units, split_of_above hlower (Int.not_lt.2 h)]
  exact Liquidity.units0_self _ _

/-- Below a range there is none of the second token. -/
theorem units_of_lt (h : p.tick < lower) (liquidity : Nat) :
    p.units .token1 lower upper liquidity = 0 := by
  rw [units, split_of_below h]
  exact Liquidity.units1_self _ _

end Pool

/-- **What a deposit uses of each token**: some of the first one if the range reaches above the
price, some of the second one if it begins below it, and the liquidity costs a unit there. -/
theorem Operation.quote_pos_iff {p : Pool} {d : Deposit} {r : Receipt} (h : quote p d = .ok r)
    (hordered : d.lower < d.upper) :
    (0 < r.amount0.val ↔ p.tick < d.upper ∧
      p.CostsUnit .token0 d.lower d.upper r.liquidity.raw.toNat) ∧
    (0 < r.amount1.val ↔ d.lower ≤ p.tick ∧
      p.CostsUnit .token1 d.lower d.upper r.liquidity.raw.toNat) := by
  obtain ⟨h0, h1⟩ := quote_units h
  have hpos (amount : Amount) : 0 < amount.val ↔ 0 < amount.toNat := Int.lt_toNat.symm
  simp only [hpos, Pool.costsUnit_iff, h0, h1]
  constructor
  · refine ⟨fun hunits => ⟨?_, hunits⟩, fun hunits => hunits.2⟩
    by_contra habove
    rw [Pool.units_of_le hordered (Int.not_lt.1 habove)] at hunits
    exact Nat.lt_irrefl 0 hunits
  · refine ⟨fun hunits => ⟨?_, hunits⟩, fun hunits => hunits.2⟩
    by_contra hbelow
    rw [Pool.units_of_lt (Int.not_le.1 hbelow)] at hunits
    exact Nat.lt_irrefl 0 hunits

/-! ### The first price -/

/-- A pool takes its first price from an offer of both tokens: that of the second one over the
first. -/
theorem Pool.openWith_eq_ok_iff {p opened : Pool} {amount0 amount1 : Amount} :
    p.openWith amount0 amount1 = .ok opened ↔ 0 < amount0.val ∧ 0 < amount1.val ∧
      ∃ price root tick, (Dec.ofAmount amount1).quo (Dec.ofAmount amount0) = .ok price ∧
        price.sqrt = .ok root ∧ Tick.ofPrice price = .ok tick ∧
        opened = { p with sqrtPrice := root, tick := tick } := by
  have h0 := amount0.lo_le
  have h1 := amount1.lo_le
  rw [openWith]
  split
  next hzero =>
    simp only [reduceCtorEq, false_iff]
    rintro ⟨hpos0, hpos1, -⟩
    omega
  next hboth =>
    rw [mapError_eq_ok_iff]
    simp only [bind_eq_ok_iff]
    constructor
    · rintro ⟨price, hprice, root, hroot, tick, htick, heq⟩
      cases heq
      exact ⟨by omega, by omega, price, root, tick, hprice, hroot, htick, rfl⟩
    · rintro ⟨-, -, price, root, tick, hprice, hroot, htick, rfl⟩
      exact ⟨price, hprice, root, hroot, tick, htick, rfl⟩

/-- **A deposit into a pool without a price** sets the price that it offers, and uses what its
liquidity is worth at that price. -/
theorem Operation.deposit_of_noPrice {s s' : Store} {now : Timestamp} {c : Config} {d : Deposit}
    {r : Receipt} (h : (deposit now c d).run s = (.ok r, s'))
    (hprice : s.priceOf d.pool = some Pool.noPrice) :
    0 < d.amount0.val ∧ 0 < d.amount1.val ∧
      ∃ q price, s'.pools.get? d.pool = some q ∧
        (Dec.ofAmount d.amount1).quo (Dec.ofAmount d.amount0) = .ok price ∧
        price.sqrt = .ok q.sqrtPrice ∧ Tick.ofPrice price = .ok q.tick ∧
        (0 < r.amount0.val ↔ q.tick < d.upper ∧
          q.CostsUnit .token0 d.lower d.upper r.liquidity.raw.toNat) ∧
        (0 < r.amount1.val ↔ d.lower ≤ q.tick ∧
          q.CostsUnit .token1 d.lower d.upper r.liquidity.raw.toNat) := by
  obtain ⟨found, p, s₁, position, hfound, hordered, hpriced, hquote, hkey, -, -, hs⟩ :=
    deposit_effect h
  rw [Store.priceOf_of_get? hfound, Option.some.injEq, ← Pool.isUnpriced_iff] at hprice
  obtain ⟨q, hq⟩ := hs.exists_pool
  rw [hkey] at hq
  have hsame := hs.pool_eq (hpriced.get?_eq hfound) hq
  obtain ⟨-, hopen, -⟩ | ⟨hnot, -⟩ := hpriced
  · obtain ⟨h0, h1, price, root, tick, hquo, hroot, htick, hopened⟩ :=
      Pool.openWith_eq_ok_iff.1 hopen
    obtain ⟨huse0, huse1⟩ := quote_pos_iff hquote hordered
    have hunits : q.units = p.units := Pool.units_congr (by rw [hsame]) (by rw [hsame])
    have hqtick : q.tick = p.tick := by rw [hsame]
    simp only [Pool.costsUnit_iff, ← hunits, ← hqtick] at huse0 huse1 ⊢
    refine ⟨h0, h1, q, price, hq, hquo, ?_, ?_, huse0, huse1⟩
    · rw [hsame, hopened]
      exact hroot
    · rw [hqtick, hopened]
      exact htick
  · rw [hprice] at hnot
    cases hnot

/-! ### Everything that is asked of a ledger -/

/-- Something that is asked of a ledger, apart from looking: a request, a tick that is kept as it is
given, or a setting of the clock. -/
inductive Action : Type 1 where
  | request {α : Type} (r : Request α)
  | setTick (id : PoolId) (t : Tick) (state : TickState)
  | setTime (time : Timestamp)

namespace Action

/-- The ledger after an action, whether it was refused or not. -/
def apply (a : Action) (l : Ledger) : Ledger :=
  match a with
  | request r => (r.call.run l).2
  | setTick id t state => ((Ledger.setTick id t state).run l).2
  | setTime time => ((Ledger.setTime time).run l).2

/-- An action is a deposit into a pool, and the ledger accepts it. -/
def Opens (id : PoolId) (l : Ledger) : Action → Prop
  | request (.deposit d) => d.pool = id ∧ ∃ r l', (Ledger.deposit d).run l = (.ok r, l')
  | _ => False

end Action

namespace Ledger

variable {l l' : Ledger} {id : PoolId}

/-- The ledger after some actions. -/
def afterActions (l : Ledger) (actions : List Action) : Ledger :=
  actions.foldl (fun l a => a.apply l) l

/-- No deposit into a pool is accepted among some actions. -/
def Unopened (id : PoolId) : Ledger → List Action → Prop
  | _, [] => True
  | l, a :: rest => ¬a.Opens id l ∧ Unopened id (a.apply l) rest

/-- **A request leaves a pool without a price**, unless it is a deposit into it that is accepted. -/
theorem noPrice_of_request {α : Type} {r : Request α} {outcome : Except LedgerError α}
    (h : r.call.run l = (outcome, l')) (hopens : ¬(Action.request r).Opens id l)
    (hprice : l.store.priceOf id = some Pool.noPrice) :
    l'.store.priceOf id = some Pool.noPrice := by
  cases outcome with
  | error e => rw [(Request.refused_by h).1, hprice]
  | ok a =>
    obtain ⟨hrun, -⟩ := Request.settled h
    rw [← hprice]
    cases r with
    | deposit d =>
      exact Operation.deposit_priceOf hrun fun hpool => absurd ⟨hpool, a, l', h⟩ hopens
    | withdraw w => exact Operation.withdraw_priceOf hrun id
    | crossTick at' t => exact (Operation.crossTick_recrossed hrun).1.priceOf_eq id
    | addIncentive at' incentive => exact (Operation.addIncentive_recrossed hrun).priceOf_eq id
    | changeTick at' t edge delta ids => exact Operation.changeTick_priceOf hrun id

/-- An action that does not open a pool leaves it without a price. -/
theorem noPrice_of_action {a : Action} (hopens : ¬a.Opens id l)
    (hprice : l.store.priceOf id = some Pool.noPrice) :
    (a.apply l).store.priceOf id = some Pool.noPrice := by
  cases a with
  | request r =>
    rcases hrun : r.call.run l with ⟨outcome, l'⟩
    have hkept := noPrice_of_request hrun hopens hprice
    rwa [Action.apply, hrun]
  | setTick at' t state => exact hprice
  | setTime time => exact hprice

/-- **A pool has no price before its first deposit**, whatever else was asked of the ledger. -/
theorem noPrice_after {actions : List Action} (hunopened : Unopened id l actions)
    (hprice : l.store.priceOf id = some Pool.noPrice) :
    (l.afterActions actions).store.priceOf id = some Pool.noPrice := by
  induction actions generalizing l with
  | nil => exact hprice
  | cons a rest ih => exact ih hunopened.2 (noPrice_of_action hunopened.1 hprice)

/-- **The first deposit into a pool.** On a pool without a price, after any actions among which no
deposit into it was accepted, let a deposit into it be accepted. Then it offered something of both
tokens, and the pool has the price of the second amount over the first, as a square root and as a
tick. Of the first token the deposit used something exactly when the range reaches above that tick
and the liquidity costs a unit there; of the second one, exactly when the range begins at that tick
or below it and the liquidity costs a unit there. -/
theorem first_deposit {p : Pool} (hp : l.store.pools.get? id = some p)
    (hunpriced : p.isUnpriced = true) {actions : List Action} (hunopened : Unopened id l actions)
    {d : Deposit} (hd : d.pool = id) {r : Receipt}
    (h : (deposit d).run (l.afterActions actions) = (.ok r, l')) :
    0 < d.amount0.val ∧ 0 < d.amount1.val ∧
      ∃ q price, l'.store.pools.get? id = some q ∧
        (Dec.ofAmount d.amount1).quo (Dec.ofAmount d.amount0) = .ok price ∧
        price.sqrt = .ok q.sqrtPrice ∧ Tick.ofPrice price = .ok q.tick ∧
        (0 < r.amount0.val ↔ q.tick < d.upper ∧
          q.CostsUnit .token0 d.lower d.upper r.liquidity.raw.toNat) ∧
        (0 < r.amount1.val ↔ d.lower ≤ q.tick ∧
          q.CostsUnit .token1 d.lower d.upper r.liquidity.raw.toNat) := by
  have hprice : l.store.priceOf id = some Pool.noPrice := by
    rw [Store.priceOf_of_get? hp, Pool.isUnpriced_iff.1 hunpriced]
  subst hd
  obtain ⟨s, _, _, _, hrun, -, -, rfl⟩ := deposit_eq_ok h
  exact Operation.deposit_of_noPrice hrun (noPrice_after hunopened hprice)

end Ledger

namespace Sample

/-- The clock is set, and a deposit that offers nothing of the first token is refused. -/
def waiting : List Action :=
  [.setTime (time 100), .request (.deposit (deposit 0 500 (-10) 10))]

/-- None of these opens the pool: the deposit is refused. -/
theorem unopened_waiting : Ledger.Unopened pool.id ledger waiting := by
  have hrefused : ∀ r l', (Ledger.deposit (deposit 0 500 (-10) 10)).run
      (Action.apply (.setTime (time 100)) ledger) ≠ (.ok r, l') :=
    Call.ne_ok_of_isNone (by decide +kernel)
  refine ⟨fun h => h, ?_, trivial⟩
  rintro ⟨-, r, l', hrun⟩
  exact hrefused r l' hrun

end Sample

/-- An offer of as much of both tokens, over a range around the tick at price one: both are used. -/
theorem Ledger.first_deposit_sample :
    ∃ r l', (Ledger.deposit (Sample.deposit 500 500 (-10) 10)).run
        (Sample.ledger.afterActions Sample.waiting) = (.ok r, l') ∧
      0 < r.amount0.val ∧ 0 < r.amount1.val := by
  obtain ⟨r, l', hrun, hcosts⟩ : ∃ r l', (Ledger.deposit (Sample.deposit 500 500 (-10) 10)).run
      (Sample.ledger.afterActions Sample.waiting) = (.ok r, l') ∧
        (((Ledger.deposit (Sample.deposit 500 500 (-10) 10)).run
          (Sample.ledger.afterActions Sample.waiting)).2.store.pools.get? Sample.pool.id).all
            (fun q => q.InRange (Sample.tick (-10)) (Sample.tick 10) ∧
              q.CostsUnit .token0 (Sample.tick (-10)) (Sample.tick 10) r.liquidity.raw.toNat ∧
              q.CostsUnit .token1 (Sample.tick (-10)) (Sample.tick 10) r.liquidity.raw.toNat) =
                true := Call.exists_of_any (by decide +kernel)
  obtain ⟨-, -, q, price, hq, -, -, -, huse0, huse1⟩ := Ledger.first_deposit
    (p := Sample.pool) (by rfl) (by decide) Sample.unopened_waiting rfl hrun
  rw [hrun, hq] at hcosts
  obtain ⟨⟨hlower, hupper⟩, hunit0, hunit1⟩ := of_decide_eq_true hcosts
  exact ⟨r, l', hrun, huse0.2 ⟨hupper, hunit0⟩, huse1.2 ⟨hlower, hunit1⟩⟩

/-- **A first deposit that uses one token alone**: its range lies above the price that it sets, and
nothing of the second token goes to the pool. -/
theorem Ledger.first_deposit_of_one_token : Sample.ledger.store.IsFresh ∧
    Sample.pool.isUnpriced = true ∧
    ∃ r l', (Ledger.deposit (Sample.deposit 500 500 10 20)).run Sample.ledger = (.ok r, l') ∧
      0 < r.amount0.val ∧ r.amount1.val = 0 := by
  refine ⟨Sample.ledger_isFresh, by decide, Call.exists_of_any ?_⟩
  decide +kernel

end RangeLedger
