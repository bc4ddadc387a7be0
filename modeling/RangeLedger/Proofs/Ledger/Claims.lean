import RangeLedger.Proofs.Bank.Transfers
import RangeLedger.Proofs.Ledger.ActiveLiquidity
import RangeLedger.Proofs.Pool.Units

/-!
# Claims on an account

Pools keep their tokens at accounts. What a position is worth at the current price of its pool is a
claim on the account of the pool, in whole units of each token. This module adds these claims up, in
one denomination at one account, and tells what a change of a position does to the sum. It speaks of
accounts and denominations and not of pools, so pools may share their accounts, and a pool may trade
a token for itself.

The units of a sum are not the sum of the units (`Pool.units_merge`): a position that gains
liquidity can then be worth one unit of each token more than what was there and what was added. Such
a change strains the account (`Store.strain`). A new position, or one that is taken whole, does not.

## Main results

* `Pool.worth_merge`: the worth of a sum of two liquidities.
* `Store.Repositioned.claims_eq`: the claims after a change of a position.
* `Store.Repositioned.worth_gain`, `Store.Repositioned.worth_loss`: what the changed position is
  worth then, up to the strain.
-/

namespace RangeLedger

/-! ### What a position is worth at an account -/

namespace Pool

variable {p : Pool} {account : Address} {denom : String} {lower upper : Tick}

/-- The number of tokens of a pool that lie at an account in a denomination. -/
def sides (p : Pool) (account : Address) (denom : String) : Nat :=
  if p.address = account then
    (if p.token0 = denom then 1 else 0) + if p.token1 = denom then 1 else 0
  else 0

/-- The units of a denomination at an account that a liquidity over a range is worth. -/
def worth (p : Pool) (account : Address) (denom : String) (lower upper : Tick) (liquidity : Nat) :
    Nat :=
  if p.address = account then
    (if p.token0 = denom then p.units .token0 lower upper liquidity else 0) +
      if p.token1 = denom then p.units .token1 lower upper liquidity else 0
  else 0

/-- Without liquidity nothing is due. -/
@[simp] theorem worth_zero (p : Pool) (account : Address) (denom : String) (lower upper : Tick) :
    p.worth account denom lower upper 0 = 0 := by
  rw [worth]
  simp only [units_zero, ite_self]

/-- The worth depends on the account, the tokens and the price alone. -/
theorem worth_withLiquidity (p : Pool) (active : Dec) :
    ({ p with liquidity := active } : Pool).worth = p.worth := by
  have hunits : ({ p with liquidity := active } : Pool).units = p.units := units_congr rfl rfl
  funext account denom lower upper liquidity
  simp only [worth]
  rw [hunits]

/-- Two kinds of units that are off by one each, where they count, are off by their number. -/
theorem merge_units {c d : Prop} [Decidable c] [Decidable d] {u u' u'' v v' v'' : Nat}
    (hu : u'' ≤ u + u' + 1 ∧ u + u' ≤ u'' + 1) (hv : v'' ≤ v + v' + 1 ∧ v + v' ≤ v'' + 1) :
    ((if c then u'' else 0) + if d then v'' else 0) ≤
        ((if c then u else 0) + if d then v else 0) +
          ((if c then u' else 0) + if d then v' else 0) +
          ((if c then 1 else 0) + if d then 1 else 0) ∧
      ((if c then u else 0) + if d then v else 0) + ((if c then u' else 0) + if d then v' else 0) ≤
        ((if c then u'' else 0) + if d then v'' else 0) +
          ((if c then 1 else 0) + if d then 1 else 0) := by
  split_ifs <;> omega

/-- **The worth of a sum** is that of its parts, but for one unit of each token. -/
theorem worth_merge (p : Pool) (account : Address) (denom : String) (lower upper : Tick)
    (l l' : Nat) :
    p.worth account denom lower upper (l + l') ≤ p.worth account denom lower upper l +
        p.worth account denom lower upper l' + p.sides account denom ∧
      p.worth account denom lower upper l + p.worth account denom lower upper l' ≤
        p.worth account denom lower upper (l + l') + p.sides account denom := by
  simp only [worth, sides]
  split
  · exact merge_units (p.units_merge .token0 lower upper l l')
      (p.units_merge .token1 lower upper l l')
  · exact ⟨Nat.le_refl 0, Nat.le_refl 0⟩

/-- More liquidity is worth no less. -/
theorem worth_mono {l l' : Nat} (h : l ≤ l') :
    p.worth account denom lower upper l ≤ p.worth account denom lower upper l' := by
  have hside {side : Side} {c : Prop} [Decidable c] :
      (if c then p.units side lower upper l else 0) ≤
        if c then p.units side lower upper l' else 0 := by
    split
    · exact p.units_mono side lower upper h
    · exact Nat.le_refl 0
  simp only [worth]
  split
  · exact Nat.add_le_add hside hside
  · exact Nat.le_refl 0

/-- The coins of a pool are worth what the liquidity is that they are taken or paid for, whatever
the active liquidity has become. -/
theorem amountOf_coins_eq_worth {q : Pool} (hq : q = { p with liquidity := q.liquidity })
    {amount0 amount1 : Amount} {liquidity : Nat}
    (h0 : amount0.toNat = p.units .token0 lower upper liquidity)
    (h1 : amount1.toNat = p.units .token1 lower upper liquidity) (account : Address)
    (denom : String) :
    (if q.address = account then (Bank.amountOf (q.coins amount0 amount1) denom : Int) else 0) =
      p.worth account denom lower upper liquidity := by
  rw [amountOf_coins, h0, h1, hq]
  rw [worth]
  split
  · rfl
  · rfl

end Pool

namespace Store

/-- What a position is worth, in a denomination at an account: nothing, unless its pool has tokens
there. -/
def claimOn (s : Store) (account : Address) (denom : String) (position : Position) : Int :=
  match s.pools.get? position.key.pool with
  | some p =>
    p.worth account denom position.key.lower position.key.upper position.liquidity.raw.toNat
  | none => 0

/-- What all positions together are worth. -/
def claims (s : Store) (account : Address) (denom : String) : Int :=
  s.total (s.claimOn account denom)

variable {s s' : Store} {account : Address} {denom : String}

/-- The claim of a position of a pool that is kept is its worth there. -/
theorem claimOn_eq {position : Position} {p : Pool} (hp : s.pools.get? position.key.pool = some p) :
    s.claimOn account denom position =
      p.worth account denom position.key.lower position.key.upper position.liquidity.raw.toNat := by
  rw [claimOn, hp]

/-- A position of a pool that is not kept claims nothing. -/
theorem claimOn_of_none {position : Position} (hp : s.pools.get? position.key.pool = none) :
    s.claimOn account denom position = 0 := by
  rw [claimOn, hp]

/-- A claim depends on what the pool of the position says that liquidity is worth. -/
theorem claimOn_congr {position : Position}
    (h : (s'.pools.get? position.key.pool).map Pool.worth =
      (s.pools.get? position.key.pool).map Pool.worth) :
    s'.claimOn account denom position = s.claimOn account denom position := by
  cases hp : s.pools.get? position.key.pool with
  | none =>
    rw [hp, Option.map_none] at h
    rw [claimOn_of_none hp, claimOn_of_none (Option.map_eq_none_iff.1 h)]
  | some p =>
    rw [hp, Option.map_some] at h
    obtain ⟨p', hp', hworth⟩ := Option.map_eq_some_iff.1 h
    rw [claimOn_eq hp, claimOn_eq hp', hworth]

/-- Only liquidity makes a claim. -/
theorem backed_claimOn (s : Store) (account : Address) (denom : String) :
    Backed (s.claimOn account denom) := by
  intro position hzero
  cases hp : s.pools.get? position.key.pool with
  | none => exact claimOn_of_none hp
  | some p =>
    rw [claimOn_eq hp, hzero]
    exact congrArg Int.ofNat (Pool.worth_zero p account denom _ _)

/-- No claim is negative. -/
theorem claimOn_nonneg (s : Store) (account : Address) (denom : String) (position : Position) :
    0 ≤ s.claimOn account denom position := by
  cases hp : s.pools.get? position.key.pool with
  | none => exact Int.le_of_eq (claimOn_of_none hp).symm
  | some p =>
    rw [claimOn_eq hp]
    exact Int.natCast_nonneg _

/-- A stored position is worth no more than all positions together. -/
theorem claimOn_le_claims (account : Address) (denom : String) {key : PositionKey}
    {position : Position} (h : s.positions.get? key = some position) :
    s.claimOn account denom position ≤ s.claims account denom :=
  Table.le_sum_of_mem (fun row _ => s.claimOn_nonneg account denom row) (Table.mem_of_get? h)

/-! ### What changes the worth of positions -/

/-- On a fresh store there are no claims. -/
theorem IsFresh.claims_eq (h : s.IsFresh) (account : Address) (denom : String) :
    s.claims account denom = 0 :=
  h.total_eq _

/-- Crossings change no claim: neither the positions nor the prices. -/
theorem Recrossed.claims_eq (h : s.Recrossed s') (account : Address) (denom : String) :
    s'.claims account denom = s.claims account denom := by
  refine (total_congr h.positions _).trans (Table.sum_congr fun position _ => claimOn_congr ?_)
  have hbare := congrArg (Option.map Pool.worth) (h.pools position.key.pool)
  rw [Option.map_map, Option.map_map] at hbare
  exact hbare

/-- The first price of a pool changes no worth: there are no positions yet. -/
theorem Balanced.claims_pricedAs (h : s.Balanced) {found p : Pool} {amount0 amount1 : Amount}
    (hfound : s.pools.get? found.id = some found)
    (hs : Operation.PricedAs s found amount0 amount1 p s') (account : Address) (denom : String) :
    s'.claims account denom = s.claims account denom := by
  obtain ⟨hunpriced, hopen, rfl⟩ | ⟨-, -, rfl⟩ := hs
  · obtain ⟨root, tick, rfl, -⟩ := Pool.openWith_eq_ok hopen
    refine Table.sum_congr fun position hposition => claimOn_congr (congrArg _ ?_)
    have hne := h.pool_ne hfound hunpriced (Table.get?_of_mem hposition)
    exact (get?_setPool s _ _).trans (if_neg fun hid => hne hid.symm)
  · rfl

/-- A change of a position changes the worth of that position alone. -/
theorem Repositioned.claims_eq {position : Position} {delta : Dec}
    (h : s.Repositioned position delta s')
    (htarget : s.Target position.key position.incentives position) {p : Pool}
    (hp : s.pools.get? position.key.pool = some p) (account : Address) (denom : String) :
    s'.claims account denom = s.claims account denom +
      p.worth account denom position.key.lower position.key.upper
        (position.liquidity.raw + delta.raw).toNat -
      p.worth account denom position.key.lower position.key.upper position.liquidity.raw.toNat := by
  obtain ⟨liquidity, hadd, htotal, -⟩ := h.liquidity
  obtain ⟨p', active, hp', -, hpools⟩ := h.pools
  have hsame : s'.claimOn account denom = s.claimOn account denom := by
    funext other
    refine claimOn_congr ?_
    rw [hpools]
    split
    next hid =>
      rw [← hid, hp', Option.map_some, Option.map_some, Pool.worth_withLiquidity]
    next => rfl
  have hafter : s.claimOn account denom { position with liquidity := liquidity } =
      p.worth account denom position.key.lower position.key.upper
        (position.liquidity.raw + delta.raw).toNat := by
    rw [← Dec.add_eq_ok_iff.1 hadd]
    exact claimOn_eq hp
  simp only [claims]
  rw [hsame, htotal _ (s.backed_claimOn account denom),
    htarget.share_eq (s.backed_claimOn account denom), hafter, claimOn_eq hp]

/-! ### Strain -/

/-- The number of tokens of a pool that lie at an account in a denomination; none of a pool that is
not kept. -/
def sides (s : Store) (account : Address) (denom : String) (id : PoolId) : Nat :=
  match s.pools.get? id with
  | some p => p.sides account denom
  | none => 0

/-- The sides of a pool that is kept. -/
theorem sides_eq {id : PoolId} {p : Pool} (hp : s.pools.get? id = some p) :
    s.sides account denom id = p.sides account denom := by
  rw [sides, hp]

/-- Whether a position is kept under a key before and after, with another liquidity. -/
def alters (s s' : Store) (key : PositionKey) : Bool :=
  (s.positions.get? key).any fun before =>
    (s'.positions.get? key).any fun after => before.liquidity != after.liquidity

/-- What an account can lose by a change under a key: if a position is altered there, one unit of
each token of its pool that lies at the account in the denomination. -/
def strain (s s' : Store) (account : Address) (denom : String) (key : PositionKey) : Nat :=
  if s.alters s' key then s.sides account denom key.pool else 0

/-- A change that leaves something of a stored position alters it. -/
theorem Repositioned.alters {position : Position} {delta : Dec}
    (h : s.Repositioned position delta s')
    (hstored : s.positions.get? position.key = some position) (hdelta : delta.raw ≠ 0)
    (hrest : position.liquidity.raw + delta.raw ≠ 0) : s.alters s' position.key = true := by
  obtain ⟨liquidity, hadd, -, hpositions⟩ := h.liquidity
  have hraw := Dec.add_eq_ok_iff.1 hadd
  have hkept : liquidity.isZero = false := beq_false_of_ne (by omega)
  have hne : position.liquidity ≠ liquidity := fun heq => hdelta (by rw [← heq] at hraw; omega)
  rw [Store.alters, hstored, hpositions, if_pos rfl, hkept]
  exact bne_iff_ne.2 hne

/-- The strain of a change that leaves something of a stored position is the sides of its pool. -/
theorem Repositioned.strain_eq {position : Position} {delta : Dec}
    (h : s.Repositioned position delta s')
    (hstored : s.positions.get? position.key = some position) (hdelta : delta.raw ≠ 0)
    (hrest : position.liquidity.raw + delta.raw ≠ 0) {p : Pool}
    (hp : s.pools.get? position.key.pool = some p) :
    s.strain s' account denom position.key = p.sides account denom := by
  rw [strain, if_pos (h.alters hstored hdelta hrest), sides_eq hp]

/-- Liquidity that is added to a position makes it worth more by the worth of what was added, up to
the strain. -/
theorem Repositioned.worth_gain {position : Position} {delta : Dec}
    (h : s.Repositioned position delta s')
    (htarget : s.Target position.key position.incentives position) (hdelta : 0 < delta.raw)
    (hheld : 0 ≤ position.liquidity.raw) {p : Pool}
    (hp : s.pools.get? position.key.pool = some p) (account : Address) (denom : String) :
    p.worth account denom position.key.lower position.key.upper
        (position.liquidity.raw + delta.raw).toNat ≤
      p.worth account denom position.key.lower position.key.upper position.liquidity.raw.toNat +
        p.worth account denom position.key.lower position.key.upper delta.raw.toNat +
        s.strain s' account denom position.key := by
  rw [Int.toNat_add hheld (Int.le_of_lt hdelta)]
  obtain ⟨hstored, -⟩ | ⟨-, hempty⟩ := htarget
  · rw [h.strain_eq hstored (Int.ne_of_gt hdelta) (by omega) hp]
    exact (p.worth_merge account denom _ _ _ _).1
  · have hnew : position.liquidity.raw = 0 := by
      rw [hempty]
      rfl
    rw [hnew, Int.toNat_zero, Nat.zero_add, Pool.worth_zero, Nat.zero_add]
    exact Nat.le_add_right _ _

/-- Liquidity that is taken from a position makes it worth less by the worth of what was taken, up
to the strain. -/
theorem Repositioned.worth_loss {position : Position} {delta : Dec}
    (h : s.Repositioned position delta s')
    (hstored : s.positions.get? position.key = some position) (hdelta : delta.raw < 0)
    (hrest : 0 ≤ position.liquidity.raw + delta.raw) {p : Pool}
    (hp : s.pools.get? position.key.pool = some p) (account : Address) (denom : String) :
    p.worth account denom position.key.lower position.key.upper
        (position.liquidity.raw + delta.raw).toNat +
      p.worth account denom position.key.lower position.key.upper (-delta.raw).toNat ≤
      p.worth account denom position.key.lower position.key.upper position.liquidity.raw.toNat +
        s.strain s' account denom position.key := by
  have hsum : position.liquidity.raw.toNat =
      (position.liquidity.raw + delta.raw).toNat + (-delta.raw).toNat := by omega
  rw [hsum]
  by_cases hwhole : position.liquidity.raw + delta.raw = 0
  · rw [hwhole, Int.toNat_zero, Pool.worth_zero, Nat.zero_add, Nat.zero_add]
    exact Nat.le_add_right _ _
  · rw [h.strain_eq hstored (Int.ne_of_lt hdelta) hwhole hp]
    exact (p.worth_merge account denom _ _ _ _).2

end Store

/-- A first price strains no account. -/
theorem Operation.PricedAs.strain_eq {s s' s'' : Store} {found p : Pool} {amount0 amount1 : Amount}
    (h : PricedAs s found amount0 amount1 p s') {account : Address} {denom : String}
    {key : PositionKey} (hfound : s.pools.get? key.pool = some found) :
    s'.strain s'' account denom key = s.strain s'' account denom key := by
  unfold Store.strain Store.alters
  rw [h.positions_eq, Store.sides_eq hfound, Store.sides_eq (h.get?_eq hfound), h.pool_eq]
  rfl

end RangeLedger
