import RangeLedger.Proofs.Ledger.Atomicity
import RangeLedger.Proofs.Ledger.Runs
import RangeLedger.Proofs.Operation.Locality

/-!
# Requests on different pools

Pools share the bank, and nothing else. A request reads and writes in the part of the store that
belongs to its pool, so requests on different pools do not see each other there. At the bank they
can meet: the same owner may pay for both, in the same tokens. But an accepted request changes each
balance by a payment that follows from its answer and from the tokens and the account of its pool,
whatever the balances are. So where both orders are accepted, they come to the same.

Nothing is asked of the ledger. In one order a request may be refused for missing funds that the
other order provides; that is why both are asked to be accepted.

## Main results

* `Request.run_comm`: on the store, requests on different pools never see each other.
* `Request.Paid.balance`: the balances after a request.
* `Request.commute`: two requests on different pools can change places.
-/

namespace RangeLedger

variable {α β : Type}

namespace Request

/-- **A request works on its pool.** -/
theorem operation_worksOn (r : Request α) (now : Timestamp) (c : Config) :
    (r.operation now c).WorksOn r.pool fun _ => True := by
  cases r with
  | deposit d => exact Operation.deposit_worksOn now c d
  | withdraw w => exact Operation.withdraw_worksOn now c w
  | crossTick id t => exact Operation.crossTick_worksOn now c.inactiveMode id t
  | addIncentive id incentive => exact Operation.addIncentive_worksOn id incentive
  | changeTick id t edge delta ids => exact Operation.changeTick_worksOn now id t edge delta ids

/-- **On the store, requests on different pools do not see each other**: each has the outcome that
it has alone, accepted or refused, and the order does not matter for what is left. -/
theorem run_comm {r : Request α} {q : Request β} (hne : r.pool ≠ q.pool) (now : Timestamp)
    (c : Config) (s : Store) :
    ((r.operation now c).run ((q.operation now c).run s).2).1 = ((r.operation now c).run s).1 ∧
      ((q.operation now c).run ((r.operation now c).run s).2).1 = ((q.operation now c).run s).1 ∧
      ((r.operation now c).run ((q.operation now c).run s).2).2 =
        ((q.operation now c).run ((r.operation now c).run s).2).2 :=
  Script.run_comm hne (r.operation_worksOn now c) (q.operation_worksOn now c) s

/-! ### What an accepted request leaves -/

/-- An accepted request leaves the clock and the configuration. -/
theorem clock_config_of_ok {r : Request α} {l l' : Ledger} {a : α}
    (h : r.call.run l = (.ok a, l')) : l'.clock = l.clock ∧ l'.config = l.config := by
  cases r with
  | deposit d =>
    obtain ⟨_, _, _, _, -, -, -, rfl⟩ := Ledger.deposit_eq_ok h
    exact ⟨rfl, rfl⟩
  | withdraw w =>
    obtain ⟨_, _, _, _, -, -, -, rfl⟩ := Ledger.withdraw_eq_ok h
    exact ⟨rfl, rfl⟩
  | crossTick id t =>
    obtain ⟨_, _, -, rfl⟩ := Ledger.crossTick_eq_ok h
    exact ⟨rfl, rfl⟩
  | addIncentive id incentive =>
    obtain ⟨_, -, rfl⟩ := Ledger.addIncentive_eq_ok h
    exact ⟨rfl, rfl⟩
  | changeTick id t edge delta ids =>
    rw [call, run_changeTick, Call.stage] at h
    obtain ⟨_, _, -, -, rfl⟩ := Call.run_transact_eq_ok_iff.1 h
    exact ⟨rfl, rfl⟩

/-- What the payment that goes with an answer brings to an account, in a denomination. -/
def gain (r : Request α) (p : Pool) (a : α) (owner : Address) (denom : String) : Int :=
  match r.payment p a with
  | some x => (if x.payee = owner then (x.amountIn p denom : Int) else 0) -
      (if x.payer = owner then (x.amountIn p denom : Int) else 0)
  | none => 0

/-- **The balances after a request**: each has gained what the payment brings to it. -/
theorem Paid.balance {r : Request α} {p : Pool} {a : α} {b b' : Bank} (h : r.Paid p a b b')
    (owner : Address) (denom : String) :
    (b'.balance owner denom).val = (b.balance owner denom).val + r.gain p a owner denom := by
  rw [Paid] at h
  rw [gain]
  cases hpayment : r.payment p a with
  | none =>
    rw [hpayment] at h
    rw [h, Int.add_zero]
  | some x =>
    rw [hpayment] at h
    rw [h.balance owner denom]
    exact Int.add_sub_assoc _ _ _

/-- A request on another pool leaves what a request pays with: its pool. -/
theorem pool_of_other {q : Request β} {id : PoolId} (hne : id ≠ q.pool) {l l' : Ledger} {b : β}
    (h : q.call.run l = (.ok b, l')) : l'.store.pools.get? id = l.store.pools.get? id := by
  have hframe := Script.WorksOn.run_frame (q.operation_worksOn l.clock.now l.config) hne l.store
  have hstore : ((q.operation l.clock.now l.config).run l.store).2 = l'.store := by
    rw [(settled h).1]
  rw [← hstore]
  exact hframe.pool

/-- **Requests on different pools commute.** On any ledger, let two requests on different pools be
accepted in the one order and in the other. Then each gets the same answer in both orders, the
stores that are left are the same, with every pool, every tick, every listing of ticks and every
position, and so is every balance. The owners and the tokens may be the same ones. -/
theorem commute {r : Request α} {q : Request β} (hne : r.pool ≠ q.pool)
    {l l₁ l₂ k₁ k₂ : Ledger} {a a' : α} {b b' : β}
    (hr : r.call.run l = (.ok a, l₁)) (hq : q.call.run l₁ = (.ok b, l₂))
    (hq' : q.call.run l = (.ok b', k₁)) (hr' : r.call.run k₁ = (.ok a', k₂)) :
    a' = a ∧ b' = b ∧ k₂.store = l₂.store ∧
      ∀ owner denom, k₂.bank.balance owner denom = l₂.bank.balance owner denom := by
  obtain ⟨hrun, p, hp, hpaid⟩ := settled hr
  obtain ⟨hqrun, s, hs, hqpaid⟩ := settled hq
  obtain ⟨hqrun', s', hs', hqpaid'⟩ := settled hq'
  obtain ⟨hrun', p', hp', hpaid'⟩ := settled hr'
  -- both orders run on the store of the start, at the same time
  obtain ⟨hclock, hconfig⟩ := clock_config_of_ok hr
  obtain ⟨hclock', hconfig'⟩ := clock_config_of_ok hq'
  rw [hclock, hconfig] at hqrun
  rw [hclock', hconfig'] at hrun'
  obtain ⟨hfirst, hsecond, hstore⟩ := run_comm hne l.clock.now l.config l.store
  rw [hrun, hqrun', hqrun, hrun'] at hstore
  rw [hrun, hqrun', hrun'] at hfirst
  rw [hrun, hqrun', hqrun] at hsecond
  obtain rfl : a' = a := Except.ok.inj hfirst
  obtain rfl : b = b' := Except.ok.inj hsecond
  refine ⟨rfl, rfl, hstore, fun owner denom => Bounded.ext ?_⟩
  -- the payments are made from the same pools
  rw [pool_of_other hne hq', hp] at hp'
  rw [pool_of_other hne.symm hr, hs'] at hs
  cases hp'
  cases hs
  rw [hpaid'.balance, hqpaid'.balance, hqpaid.balance, hpaid.balance]
  exact Int.add_right_comm _ _ _

end Request

/-- Two calls that are accepted one after the other. -/
theorem Call.exists_of_isSome {x : Call α} {y : Call β} {l : Ledger}
    (hx : (x.run l).1.toOption.isSome = true)
    (hy : (y.run (x.run l).2).1.toOption.isSome = true) :
    ∃ a l₁ b l₂, x.run l = (.ok a, l₁) ∧ y.run l₁ = (.ok b, l₂) := by
  rcases hxrun : x.run l with ⟨e | a, l₁⟩
  · rw [hxrun] at hx
    cases hx
  rw [hxrun] at hy
  rcases hyrun : y.run l₁ with ⟨e | b, l₂⟩
  · rw [hyrun] at hy
    cases hy
  exact ⟨a, l₁, b, l₂, rfl, hyrun⟩

namespace Sample

/-- Another pool of the same two tokens. -/
def secondPool : Pool :=
  { pool with id := ⟨3, by decide, by decide⟩, address := ⟨4, by decide, by decide⟩ }

/-- The ledger with both pools. -/
def twoPools : Ledger := { ledger with store := Store.ofPools [pool, secondPool] }

/-- A deposit of the owner into the one pool. -/
def here : Request Receipt := .deposit (deposit 500 500 (-10) 10)

/-- A deposit of the owner into the other pool. -/
def elsewhere : Request Receipt :=
  .deposit { deposit 300 700 (-20) 20 with pool := secondPool.id }

end Sample

/-- The same owner deposits the same tokens into two pools. -/
theorem Request.commute_sample : Sample.here.pool ≠ Sample.elsewhere.pool ∧
    ∃ a b l₁ l₂ k₁ k₂, Sample.here.call.run Sample.twoPools = (.ok a, l₁) ∧
      Sample.elsewhere.call.run l₁ = (.ok b, l₂) ∧
      Sample.elsewhere.call.run Sample.twoPools = (.ok b, k₁) ∧
      Sample.here.call.run k₁ = (.ok a, k₂) ∧ k₂.store = l₂.store ∧
      k₂.bank.balance Sample.owner "eth" = l₂.bank.balance Sample.owner "eth" := by
  have hne : Sample.here.pool ≠ Sample.elsewhere.pool := by decide
  obtain ⟨a, l₁, b, l₂, hr, hq⟩ : ∃ a l₁ b l₂, Sample.here.call.run Sample.twoPools = (.ok a, l₁) ∧
      Sample.elsewhere.call.run l₁ = (.ok b, l₂) :=
    Call.exists_of_isSome (by decide +kernel) (by decide +kernel)
  obtain ⟨b', k₁, a', k₂, hq', hr'⟩ : ∃ b k₁ a k₂,
      Sample.elsewhere.call.run Sample.twoPools = (.ok b, k₁) ∧
        Sample.here.call.run k₁ = (.ok a, k₂) :=
    Call.exists_of_isSome (by decide +kernel) (by decide +kernel)
  obtain ⟨rfl, rfl, hstore, hbalances⟩ := Request.commute hne hr hq hq' hr'
  exact ⟨hne, a', b', l₁, l₂, k₁, k₂, hr, hq, hq', hr', hstore, hbalances _ _⟩

end RangeLedger
