import RangeLedger.Proofs.Ledger.Claims
import RangeLedger.Proofs.Operation.Refusals

/-!
# What custody covers

The account of a pool receives what deposits take and pays what withdrawals release, each in whole
units. As long as the price does not move, the account has taken for every position what the
position is worth, but for rounding: when a deposit adds to a position that is there, or a
withdrawal leaves a part of one, the account can be one unit of each token short of what the
positions then are worth. Nothing else costs it anything.

The invariant is `Store.CoveredBy`: what the positions are worth, in one denomination at one
account, exceeds the balance by no more than the number of such roundings (`Ledger.strain`).

## Main results

* `Event.coveredBy_apply`: one event costs an account no more than its strain.
* `Ledger.coveredBy_after_calls`: the invariant holds after every run of calls.
* `Ledger.payout_le`: what an account is to pay, it holds, but for the strain.
* `Ledger.redemption_shortfall_le`: a withdrawal finds an account short by no more than the strain.
* `Ledger.redemption_falls_short`: a position that cannot be withdrawn.
-/

namespace RangeLedger

namespace Store

variable {s s' : Store} {account : Address} {denom : String}

/-! ### The invariant -/

/-- What the positions are worth, in a denomination at an account, exceeds the balance there by no
more than a number of units. -/
structure CoveredBy (s : Store) (bank : Bank) (account : Address) (denom : String) (short : Nat) :
    Prop where
  balanced : s.Balanced
  covered : s.claims account denom ≤ (bank.balance account denom).val + short

variable {bank bank' : Bank} {short : Nat}

/-- On a fresh store nothing is owed, so any balance covers it. -/
theorem IsFresh.coveredBy (h : s.IsFresh) (bank : Bank) (account : Address) (denom : String) :
    s.CoveredBy bank account denom 0 := by
  refine ⟨h.balanced, ?_⟩
  rw [h.claims_eq]
  have hnonneg := (bank.balance account denom).lo_le
  omega

/-- Crossings change nothing of what is owed. -/
theorem CoveredBy.of_recrossed (h : s.CoveredBy bank account denom short) (hs : s.Recrossed s') :
    s'.CoveredBy bank account denom short := by
  refine ⟨h.balanced.of_recrossed hs, ?_⟩
  rw [hs.claims_eq]
  exact h.covered

/-- **A deposit** brings what the liquidity on its receipt is worth; on top of a position that is
there this is short by one unit of each token at most. -/
theorem CoveredBy.of_deposit (h : s.CoveredBy bank account denom short) {now : Timestamp}
    {c : Config} {d : Deposit} {r : Receipt} {p : Pool}
    (hrun : (Operation.deposit now c d).run s = (.ok r, s')) (hpool : s'.pools.get? d.pool = some p)
    (hsend : bank.send d.owner p.address (p.coins r.amount0 r.amount1) = .ok bank')
    (howner : d.owner ≠ account) :
    s'.CoveredBy bank' account denom (short + s.strain s' account denom d.key) := by
  refine ⟨h.balanced.of_deposit hrun, ?_⟩
  obtain ⟨found, q, s₁, position, hfound, -, hpriced, hquote, hkey, -, htarget, hs⟩ :=
    Operation.deposit_effect hrun
  obtain ⟨_, _, _, _, _, _, hpositive, -⟩ := Operation.quote_eq_ok_iff.1 hquote
  obtain ⟨hunits0, hunits1⟩ := Operation.quote_units hquote
  have hq : s₁.pools.get? d.pool = some q := hpriced.get?_eq hfound
  have hq' : s₁.pools.get? position.key.pool = some q := by rw [hkey]; exact hq
  have hfound' : s.pools.get? found.id = some found := by
    rw [Table.key_of_get? hfound]
    exact hfound
  have hheld :=
    htarget.liquidity_nonneg (h.balanced.of_pricedAs hfound' hpriced).positionsHold
  -- what the account gets, and what the positions are worth more
  have hpaid := Bank.balance_send hsend account denom
  rw [if_neg howner, Pool.amountOf_coins_eq_worth (hs.pool_eq hq hpool) hunits0 hunits1] at hpaid
  have hclaims := hs.claims_eq htarget hq' account denom
  have hgain := hs.worth_gain htarget hpositive hheld hq' account denom
  rw [h.balanced.claims_pricedAs hfound' hpriced] at hclaims
  rw [hpriced.strain_eq (by rw [hkey]; exact hfound)] at hgain
  simp only [hkey, Deposit.key_lower, Deposit.key_upper] at hclaims hgain
  have hcovered := h.covered
  generalize q.worth account denom d.lower d.upper = worth at hpaid hclaims hgain
  push_cast
  omega

/-- **A withdrawal** takes what the liquidity that it asks for is worth; if a part of the position
is left this can be one unit of each token too much. -/
theorem CoveredBy.of_withdraw (h : s.CoveredBy bank account denom short) {now : Timestamp}
    {c : Config} {w : Withdrawal} {out : Amount × Amount} {p : Pool}
    (hrun : (Operation.withdraw now c w).run s = (.ok out, s'))
    (hpool : s'.pools.get? w.pool = some p)
    (hsend : bank.send p.address w.owner (p.coins out.1 out.2) = .ok bank')
    (howner : w.owner ≠ account) :
    s'.CoveredBy bank' account denom (short + s.strain s' account denom w.key) := by
  refine ⟨h.balanced.of_withdraw hrun, ?_⟩
  obtain ⟨q, position, amounts, hq, -, hkey, hstored, hpositive, hle, hrelease, hout0, hout1, hs⟩ :=
    Operation.withdraw_effect hrun
  obtain ⟨hunits0, hunits1⟩ := Operation.release_units hpositive hrelease hout0 hout1
  have hq' : s.pools.get? position.key.pool = some q := by rw [hkey]; exact hq
  have hneg : w.liquidity.neg.raw = -w.liquidity.raw := by
    refine Dec.raw_neg ?_
    rw [Dec.limit]
    omega
  -- what the account pays, and what the positions are worth less
  have hpaid := Bank.balance_send hsend account denom
  rw [if_neg howner, Pool.amountOf_coins_eq_worth (hs.pool_eq hq hpool) hunits0 hunits1] at hpaid
  have hclaims := hs.claims_eq (.inl ⟨hstored, rfl⟩) hq' account denom
  have hloss := hs.worth_loss hstored (by omega) (by omega) hq' account denom
  simp only [hneg, hkey, Withdrawal.key_lower, Withdrawal.key_upper, Int.neg_neg] at hclaims hloss
  have hcovered := h.covered
  generalize q.worth account denom w.lower w.upper = worth at hpaid hclaims hloss
  push_cast
  omega

/-- Every pool lies at the account at which it lay before. -/
def KeepsAccounts (s s' : Store) : Prop :=
  ∀ id p', s'.pools.get? id = some p' → ∃ p, s.pools.get? id = some p ∧ p'.address = p.address

/-- Calls leave pools where they are. -/
theorem keepsAccounts_after_calls {l : Ledger} {events : List Event}
    (hevents : ∀ e ∈ events, e.IsCall) : l.store.KeepsAccounts (l.after events).store := by
  refine Ledger.store_after_calls ?_ ?_ ?_ (fun id p hp => ⟨p, hp, rfl⟩) hevents
  · intro s s' hs h id p' hp'
    obtain ⟨p, hp, heq⟩ := hs.pool hp'
    rw [heq]
    exact h id p hp
  · intro s s' now c d r hrun h id p' hp'
    obtain ⟨_, _, _, _, hfound, -, hpriced, -, -, -, -, hs⟩ := Operation.deposit_effect hrun
    obtain ⟨q, hq, heq⟩ := hs.pool hp'
    obtain ⟨p, hp, heq'⟩ := hpriced.pool hfound hq
    rw [heq, heq']
    exact h id p hp
  · intro s s' now c w out hrun h id p' hp'
    obtain ⟨_, _, _, -, -, -, -, -, -, -, -, -, hs⟩ := Operation.withdraw_effect hrun
    obtain ⟨p, hp, heq⟩ := hs.pool hp'
    rw [heq]
    exact h id p hp

end Store

/-! ### Runs -/

/-- The withdrawal of all of a position, by its owner and with its own incentives. -/
def Position.redemption (p : Position) : Withdrawal where
  pool := p.key.pool
  owner := p.key.owner
  lower := p.key.lower
  upper := p.key.upper
  liquidity := p.liquidity
  incentives := p.incentives

namespace Event

/-- The key of the position that an event is about. -/
def key? : Event → Option PositionKey
  | deposit d => some d.key
  | withdraw w => some w.key
  | _ => none

/-- An event does not come from the owner of an account. -/
def Avoids (account : Address) : Event → Prop
  | deposit d => d.owner ≠ account
  | withdraw w => w.owner ≠ account
  | _ => True

/-- What an event can cost an account. -/
def strain (account : Address) (denom : String) (e : Event) (l : Ledger) : Nat :=
  match e.key? with
  | some key => l.store.strain (e.apply l).store account denom key
  | none => 0

/-- **One event** costs an account no more than its strain. -/
theorem coveredBy_apply {e : Event} {l : Ledger} {account : Address} {denom : String} {short : Nat}
    (h : l.store.CoveredBy l.bank account denom short) (hcall : e.IsCall)
    (havoids : e.Avoids account) :
    (e.apply l).store.CoveredBy (e.apply l).bank account denom
      (short + e.strain account denom l) := by
  rw [strain]
  have heffect := e.effect_apply l
  generalize (e.apply l).store = s, (e.apply l).bank = bank at heffect ⊢
  cases heffect with
  | still =>
    refine ⟨h.balanced, Int.le_trans h.covered ?_⟩
    push_cast
    omega
  | deposit hrun hpool hsend => exact h.of_deposit hrun hpool hsend havoids
  | withdraw hrun hpool hsend => exact h.of_withdraw hrun hpool hsend havoids
  | cross hrun => exact h.of_recrossed (Operation.crossTick_recrossed hrun).1
  | addIncentive hrun => exact h.of_recrossed (Operation.addIncentive_recrossed hrun)
  | stopped => cases hcall
  | moved => cases hcall

end Event

namespace Ledger

/-- The strain of a run: that of all its events. -/
def strain (account : Address) (denom : String) : Ledger → List Event → Nat
  | _, [] => 0
  | l, e :: rest => e.strain account denom l + strain account denom (e.apply l) rest

/-- **The balance of an account and what the positions are worth there**, after every run of calls
that do not come from the account. -/
theorem coveredBy_after_calls {l : Ledger} {account : Address} {denom : String} {short : Nat}
    (h : l.store.CoveredBy l.bank account denom short) {events : List Event}
    (hevents : ∀ e ∈ events, e.IsCall ∧ e.Avoids account) :
    (l.after events).store.CoveredBy (l.after events).bank account denom
      (short + l.strain account denom events) := by
  induction events generalizing l short with
  | nil => exact h
  | cons e rest ih =>
    obtain ⟨hcall, havoids⟩ := hevents e List.mem_cons_self
    have hfirst := e.coveredBy_apply h hcall havoids
    have hrest := ih hfirst fun e' he' => hevents e' (List.mem_cons_of_mem e he')
    rw [Nat.add_assoc] at hrest
    exact hrest

/-! ### Withdrawals that find an account short -/

/-- What a withdrawal is to be paid, and from which account, if its operation is accepted. -/
def payout (l : Ledger) (w : Withdrawal) : Option (Address × List Coin) :=
  match (Operation.withdraw l.clock.now l.config w).run l.store with
  | (.ok out, s) => (s.pools.get? w.pool).map fun p => (p.address, p.coins out.1 out.2)
  | (.error _, _) => none

/-- The payout of a withdrawal, by what its operation answers. -/
theorem payout_eq_some_iff {l : Ledger} {w : Withdrawal} {account : Address} {coins : List Coin} :
    l.payout w = some (account, coins) ↔ ∃ out s p,
      (Operation.withdraw l.clock.now l.config w).run l.store = (.ok out, s) ∧
        s.pools.get? w.pool = some p ∧ p.address = account ∧ p.coins out.1 out.2 = coins := by
  rw [payout]
  rcases (Operation.withdraw l.clock.now l.config w).run l.store with ⟨e | out, s⟩
  · exact iff_of_false nofun fun ⟨_, _, _, h, _⟩ => by cases h
  · simp only [Option.map_eq_some_iff, Prod.mk.injEq]
    constructor
    · rintro ⟨p, hp, haddress, hcoins⟩
      exact ⟨out, s, p, ⟨rfl, rfl⟩, hp, haddress, hcoins⟩
    · rintro ⟨_, _, p, ⟨hout, rfl⟩, hp, haddress, hcoins⟩
      cases hout
      exact ⟨p, hp, haddress, hcoins⟩

/-- **A withdrawal that is refused for missing funds** names a denomination of its payout that the
account lacks. -/
theorem lacks_of_refused {l l' : Ledger} {w : Withdrawal} {account : Address} {denom : String}
    {available : Amount} {required : Nat}
    (h : (Ledger.withdraw w).run l =
      (.error (.bank (.insufficientFunds account denom available required)), l')) :
    ∃ coins, l.payout w = some (account, coins) ∧ l.bank.Lacks account coins denom ∧
      available = l.bank.balance account denom ∧ required = Bank.amountOf coins denom := by
  obtain ⟨-, ⟨s, hrun⟩ | hcause | ⟨out, s, p, cause, hrun, hp, hsend, hcause⟩⟩ :=
    Ledger.withdraw_eq_error h
  · exact absurd (Operation.withdraw_refusesOnly _ _ _ _ _ _ hrun) id
  · cases hcause
  · cases hcause
    obtain ⟨rfl, havailable, hrequired, hlacks⟩ := Bank.send_eq_insufficientFunds hsend
    exact ⟨_, payout_eq_some_iff.2 ⟨out, s, p, hrun, hp, rfl, rfl⟩, hlacks, havailable, hrequired⟩

section

variable {l : Ledger} (hl : l.store.IsFresh) {events : List Event}
  (hevents : ∀ e ∈ events, e.IsCall)
  (howners : ∀ e ∈ events, ∀ p ∈ l.store.pools.toList, e.Avoids p.address)

include hl hevents howners

/-- **What an account is to pay, it holds, but for its strain.** After every run of calls on a fresh
ledger that do not come from the accounts of its pools, the payout of a withdrawal exceeds what the
account holds by no more than the strain, in every denomination. -/
theorem payout_le {w : Withdrawal} {account : Address} {coins : List Coin}
    (h : (l.after events).payout w = some (account, coins)) (denom : String) :
    Bank.amountOf coins denom ≤
      ((l.after events).bank.balance account denom).toNat + l.strain account denom events := by
  obtain ⟨out, s, p, hrun, hp, rfl, rfl⟩ := payout_eq_some_iff.1 h
  obtain ⟨q, position, amounts, hq, -, hkey, hstored, hpositive, hle, hrelease, hout0, hout1, hs⟩ :=
    Operation.withdraw_effect hrun
  obtain ⟨hunits0, hunits1⟩ := Operation.release_units hpositive hrelease hout0 hout1
  have hpool := hs.pool_eq hq hp
  -- the account is that of a pool that was there from the start, so no call came from it
  obtain ⟨p₀, hp₀, haddress⟩ := Store.keepsAccounts_after_calls hevents _ q hq
  have hcovered := (coveredBy_after_calls (hl.coveredBy l.bank p.address denom) fun e he =>
    ⟨hevents e he, by rw [hpool]; exact haddress ▸ howners e he p₀ (Table.mem_of_get? hp₀)⟩).covered
  -- what is asked for is what a part of the position is worth
  have hasked := Pool.amountOf_coins_eq_worth hpool hunits0 hunits1 p.address denom
  rw [if_pos rfl] at hasked
  have hpart : q.worth p.address denom w.lower w.upper w.liquidity.raw.toNat ≤
      q.worth p.address denom w.lower w.upper position.liquidity.raw.toNat :=
    Pool.worth_mono (by omega)
  have hclaim := Store.claimOn_le_claims p.address denom hstored
  rw [Store.claimOn_eq (by rw [hkey]; exact hq), hkey] at hclaim
  have hreach : (Bank.amountOf (p.coins out.1 out.2) denom : Int) ≤
      ((l.after events).bank.balance p.address denom).val + l.strain p.address denom events := by
    calc (Bank.amountOf (p.coins out.1 out.2) denom : Int)
        = q.worth p.address denom w.lower w.upper w.liquidity.raw.toNat := hasked
      _ ≤ q.worth p.address denom w.lower w.upper position.liquidity.raw.toNat :=
          Int.ofNat_le.2 hpart
      _ ≤ (l.after events).store.claims p.address denom := hclaim
      _ ≤ ((l.after events).bank.balance p.address denom).val +
            (0 + l.strain p.address denom events : Nat) := hcovered
      _ = _ := by rw [Nat.zero_add]
  have hnonneg := ((l.after events).bank.balance p.address denom).lo_le
  rw [Bounded.toNat]
  omega

/-- **An account is short by no more than its strain.** If the account lacks a denomination of the
payout, then the run has altered positions, and what is missing is no more than the strain. -/
theorem payout_shortfall_le {w : Withdrawal} {account : Address} {coins : List Coin}
    (h : (l.after events).payout w = some (account, coins)) {denom : String}
    (hlacks : (l.after events).bank.Lacks account coins denom) :
    0 < l.strain account denom events ∧
      Bank.amountOf coins denom ≤
        ((l.after events).bank.balance account denom).toNat + l.strain account denom events := by
  have hle := payout_le hl hevents howners h denom
  have hnonneg := ((l.after events).bank.balance account denom).lo_le
  rw [Bank.Lacks] at hlacks
  rw [Bounded.toNat] at hle ⊢
  omega

end

/-- **What custody covers.** After every run of calls on a fresh ledger that do not come from the
accounts of its pools, the withdrawal of all of a stored position is refused because an account
lacks funds only if the run has altered positions that lie there, by adding to them or by
withdrawing a part; and then what is missing is no more than the strain: one unit of each token of
the pool in question, for each time. This holds of the denomination that the refusal names, and of
every other one of the payout that the account lacks: of these the refusal would name another one if
the bank looked at them in another order (`Bank.refusalInOrder_eq_insufficientFunds`). -/
theorem redemption_shortfall_le {l : Ledger} (hl : l.store.IsFresh) {events : List Event}
    (hevents : ∀ e ∈ events, e.IsCall)
    (howners : ∀ e ∈ events, ∀ p ∈ l.store.pools.toList, e.Avoids p.address) :
    ∀ key position, (l.after events).store.positions.get? key = some position →
      (∀ account denom available required l',
        (Ledger.withdraw position.redemption).run (l.after events) =
          (.error (.bank (.insufficientFunds account denom available required)), l') →
        0 < l.strain account denom events ∧
          required ≤ available.toNat + l.strain account denom events) ∧
      ∀ account coins, (l.after events).payout position.redemption = some (account, coins) →
        ∀ denom, (l.after events).bank.Lacks account coins denom →
          0 < l.strain account denom events ∧
            Bank.amountOf coins denom ≤
              ((l.after events).bank.balance account denom).toNat +
                l.strain account denom events := by
  intro key position _
  refine ⟨fun account denom available required l' hrefused => ?_, fun account coins hpayout denom =>
    payout_shortfall_le hl hevents howners hpayout⟩
  obtain ⟨coins, hpayout, hlacks, rfl, rfl⟩ := lacks_of_refused hrefused
  exact payout_shortfall_le hl hevents howners hpayout hlacks

end Ledger

/-! ### A position that cannot be withdrawn -/

namespace Sample

/-- Deposits of the owner over one range, one for each offer. -/
def deposits (lower upper : Int) (offers : List (Int × Int)) : List Event :=
  offers.map fun offer => .deposit (deposit offer.1 offer.2 lower upper)

/-- Two deposits of one unit of each token, into one position. -/
def twice : List Event := deposits (-10) 10 [(1, 1), (1, 1)]

/-- The key of that position. -/
def twiceKey : PositionKey := (deposit 1 1 (-10) 10).key

/-- Deposits are calls. -/
theorem isCall_deposits (lower upper : Int) (offers : List (Int × Int)) :
    ∀ e ∈ deposits lower upper offers, e.IsCall := by
  intro e he
  obtain ⟨offer, -, rfl⟩ := List.mem_map.1 he
  trivial

/-- The owner is not the account of the pool. -/
theorem avoids_deposits (lower upper : Int) (offers : List (Int × Int)) :
    ∀ e ∈ deposits lower upper offers, ∀ p ∈ ledger.store.pools.toList, e.Avoids p.address := by
  intro e he p hp
  have hpools : ledger.store.pools.toList = [pool] := rfl
  have hne : owner ≠ pool.address := by decide
  rw [hpools] at hp
  obtain rfl := List.mem_singleton.1 hp
  obtain ⟨offer, -, rfl⟩ := List.mem_map.1 he
  exact hne

/-- The account of the pool holds nothing to begin with. -/
theorem balance_pool (denom : String) : ledger.bank.balance pool.address denom = Amount.zero :=
  Bank.balance_eq_zero (by decide) denom

/-- All of the position cannot be withdrawn. -/
theorem twice_refused : ∃ position l',
    (ledger.after twice).store.positions.get? twiceKey = some position ∧
      (Ledger.withdraw position.redemption).run (ledger.after twice) =
        (.error (.bank (.insufficientFunds pool.address "eth" Amount.zero 1)), l') := by
  have hrefused : ((ledger.after twice).store.positions.get? twiceKey).any (fun position =>
      ((Ledger.withdraw position.redemption).run (ledger.after twice)).1 =
        .error (.bank (.insufficientFunds pool.address "eth" Amount.zero 1))) = true := by
    decide +kernel
  rw [Option.any_eq_true] at hrefused
  obtain ⟨position, hposition, hany⟩ := hrefused
  have houtcome := of_decide_eq_true hany
  rcases hrun : (Ledger.withdraw position.redemption).run (ledger.after twice) with ⟨outcome, l'⟩
  rw [hrun] at houtcome
  cases houtcome
  exact ⟨position, l', hposition, hrun⟩

end Sample

/-- **A position that cannot be withdrawn**, though the price has never moved: each of the two
deposits takes nothing of the first token, and together they are worth one unit of it. -/
theorem Ledger.redemption_falls_short :
    Sample.ledger.store.IsFresh ∧
      (∀ denom, Sample.ledger.bank.balance Sample.pool.address denom = Amount.zero) ∧
      (∀ e ∈ Sample.twice, ∀ p ∈ Sample.ledger.store.pools.toList, e.Avoids p.address) ∧
      ∃ position l', (Sample.ledger.after Sample.twice).store.positions.get? Sample.twiceKey =
          some position ∧
        (Ledger.withdraw position.redemption).run (Sample.ledger.after Sample.twice) =
          (.error (.bank (.insufficientFunds Sample.pool.address "eth" Amount.zero 1)), l') :=
  ⟨Sample.ledger_isFresh, Sample.balance_pool, Sample.avoids_deposits (-10) 10 [(1, 1), (1, 1)],
    Sample.twice_refused⟩

namespace Sample

/-- Offers into one position that leave the account short of both tokens: the first two are charged
none of the second token, and the last two less of the first one than they bring. -/
def mixed : List Event := deposits (-10) 20 [(1, 1), (1, 1), (9, 1), (9, 1)]

/-- All of that position is worth more of either token than the account holds. -/
theorem mixed_lacks : ∃ (position : Position) (coins : List Coin),
    (ledger.after mixed).store.positions.get? (deposit 1 1 (-10) 20).key = some position ∧
      (ledger.after mixed).payout position.redemption = some (pool.address, coins) ∧
      (ledger.after mixed).bank.Lacks pool.address coins "eth" ∧
      (ledger.after mixed).bank.Lacks pool.address coins "usdc" := by
  have hlacks : ((ledger.after mixed).store.positions.get? (deposit 1 1 (-10) 20).key).any
      (fun position => ((ledger.after mixed).payout position.redemption).any fun payout =>
        decide (payout.1 = pool.address ∧
          (ledger.after mixed).bank.Lacks pool.address payout.2 "eth" ∧
          (ledger.after mixed).bank.Lacks pool.address payout.2 "usdc")) = true := by
    decide +kernel
  rw [Option.any_eq_true] at hlacks
  obtain ⟨position, hposition, hpayout⟩ := hlacks
  rw [Option.any_eq_true] at hpayout
  obtain ⟨⟨account, coins⟩, hpayout, hlacking⟩ := hpayout
  obtain ⟨rfl, heth, husdc⟩ := of_decide_eq_true hlacking
  exact ⟨position, coins, hposition, hpayout, heth, husdc⟩

end Sample

/-- What is missing is no more than the strain of the run: of the denomination that a refusal names,
and of both denominations where the account lacks both. -/
theorem Ledger.redemption_shortfall_le_sample :
    (0 < Sample.ledger.strain Sample.pool.address "eth" Sample.twice ∧
      1 ≤ Amount.zero.toNat + Sample.ledger.strain Sample.pool.address "eth" Sample.twice) ∧
    0 < Sample.ledger.strain Sample.pool.address "eth" Sample.mixed ∧
      0 < Sample.ledger.strain Sample.pool.address "usdc" Sample.mixed := by
  constructor
  · obtain ⟨position, l', hposition, hrefused⟩ := Sample.twice_refused
    have hcalls : ∀ e ∈ Sample.twice, e.IsCall := Sample.isCall_deposits _ _ _
    have hnamed := (Ledger.redemption_shortfall_le Sample.ledger_isFresh hcalls
      (Sample.avoids_deposits _ _ _) _ position hposition).1
    exact hnamed _ _ _ _ _ hrefused
  · obtain ⟨position, coins, hposition, hpayout, heth, husdc⟩ := Sample.mixed_lacks
    have hcalls : ∀ e ∈ Sample.mixed, e.IsCall := Sample.isCall_deposits _ _ _
    have hlacking := (Ledger.redemption_shortfall_le Sample.ledger_isFresh hcalls
      (Sample.avoids_deposits _ _ _) _ position hposition).2 _ _ hpayout
    exact ⟨(hlacking "eth" heth).1, (hlacking "usdc" husdc).1⟩

end RangeLedger
