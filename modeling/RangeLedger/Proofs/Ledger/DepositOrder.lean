import RangeLedger.Proofs.Ledger.Commutation
import RangeLedger.Proofs.Ledger.Solvency
import RangeLedger.Proofs.Operation.Order

/-!
# Deposits into one pool

Once a pool has a price, deposits into it can change places. What is asked of the second one is met
without the first, and the other way round: the owners have the funds, the account of the pool can
take them, and no sum on the way is larger than it is in the end. So it is enough that one order is
accepted.

The net sum of a tick is the one that is not bounded by what it comes to in the end. Where two
deposits meet at a tick, the one on its lower side and the other on its upper side, their liquidity
cancels there. As long as the tick tells of positions, its net sum is covered by its gross sum, and
that settles it. A tick that was written directly may hold any net sum, and then one order can be
accepted and the other refused.

## Main results

* `Ledger.deposit_order`: deposits into a pool with a price can change places.
* `Ledger.deposit_order_at_written_tick`: not so at a tick that was written directly.
-/

namespace RangeLedger

/-- A range has an edge at each of its boundaries, and nowhere else. -/
theorem PositionKey.isSome_edgeAt_iff {key : PositionKey} {t : Tick} :
    (key.edgeAt t).isSome = true ↔ key.lower = t ∨ key.upper = t := by
  rw [edgeAt]
  split_ifs with hlower hupper <;> simp [*]

namespace Ledger

variable {l l' l₁ l₂ : Ledger} {d e : Deposit} {r q : Receipt}

/-- An accepted deposit has moved the amounts on its receipt to the account that its pool had
before. -/
theorem deposit_settled {p : Pool} (hp : l.store.pools.get? d.pool = some p)
    (h : (deposit d).run l = (.ok r, l')) :
    (Operation.deposit l.clock.now l.config d).run l.store = (.ok r, l'.store) ∧
      l.bank.send d.owner p.address (p.coins r.amount0 r.amount1) = .ok l'.bank := by
  obtain ⟨hrun, p', hp', hpaid⟩ := Request.settled (r := .deposit d) h
  obtain rfl : p = p' := Option.some.inj (hp.symm.trans hp')
  exact ⟨hrun, hpaid.send⟩

/-- A deposit is accepted if its operation succeeds and the owner can pay to the account that the
pool has before. -/
theorem exists_deposit {p : Pool} {s : Store} {bank : Bank}
    (hp : l.store.pools.get? d.pool = some p)
    (hrun : (Operation.deposit l.clock.now l.config d).run l.store = (.ok r, s))
    (hsend : l.bank.send d.owner p.address (p.coins r.amount0 r.amount1) = .ok bank) :
    ∃ metrics, (deposit d).run l =
      (.ok r, { l with store := s, bank := bank, metrics := metrics }) := by
  obtain ⟨p₁, p', hp₁, hp', haddress, hcoins⟩ := Operation.deposit_pool hrun
  obtain rfl : p = p₁ := Option.some.inj (hp.symm.trans hp₁)
  rw [← haddress, ← hcoins] at hsend
  exact deposit_of_ok hrun hp' hsend

/-- **Deposits into a pool with a price can change places.** After whatever was asked of a fresh
ledger, let two deposits into one pool with a price be accepted one after the other at one time, by
owners who are not the account of the pool. At a tick that bounds both of them, let nothing have
been written directly, or let the stakes that both of them change be covered. Then the other order
is accepted too. Each deposit gets the same receipt in both orders, the stores that are left are the
same, with every tick, every pool and every position, and so is every balance. -/
theorem deposit_order (hl : l.store.IsFresh) {actions : List Action} {p : Pool}
    (hp : (l.afterActions actions).store.pools.get? d.pool = some p)
    (hpriced : p.isUnpriced = false) (hpool : e.pool = d.pool) (hd : d.owner ≠ p.address)
    (he : e.owner ≠ p.address)
    (hshared : ∀ t, d.lower = t ∨ d.upper = t → e.lower = t ∨ e.upper = t →
      (∀ a ∈ actions, ¬a.WritesTick d.pool t) ∨
        ∀ scope : Scope, scope.Counts d.incentives → scope.Counts e.incentives →
          (((l.afterActions actions).store.tickAt d.pool t).stakeFor scope).Covered)
    (h : (deposit d).run (l.afterActions actions) = (.ok r, l₁))
    (h' : (deposit e).run l₁ = (.ok q, l₂)) :
    ∃ k₁ k₂, (deposit e).run (l.afterActions actions) = (.ok q, k₁) ∧
      (deposit d).run k₁ = (.ok r, k₂) ∧ k₂.store = l₂.store ∧
      ∀ owner denom, k₂.bank.balance owner denom = l₂.bank.balance owner denom := by
  have hsolvent := solvent_after hl actions
  have hcovered (t : Tick) (ht : (d.key.edgeAt t).isSome) (ht' : (e.key.edgeAt t).isSome)
      (scope : Scope) (hcounts : scope.Counts d.incentives) (hcounts' : scope.Counts e.incentives) :
      (((l.afterActions actions).store.tickAt d.pool t).stakeFor scope).Covered := by
    obtain hunwritten | hcovered := hshared t (PositionKey.isSome_edgeAt_iff.1 ht)
      (PositionKey.isSome_edgeAt_iff.1 ht')
    · exact (tickMatches_after hl hunwritten).covered hsolvent.positions scope
    · exact hcovered scope hcounts hcounts'
  generalize l.afterActions actions = l at hp hsolvent hcovered h
  obtain ⟨hrun, hsend⟩ := deposit_settled hp h
  obtain ⟨p₀, p₁, hp₀, hp₁, haddress, hcoins⟩ := Operation.deposit_pool hrun
  obtain rfl : p = p₀ := Option.some.inj (hp.symm.trans hp₀)
  rw [← hpool] at hp₁
  obtain ⟨hrun', hsend'⟩ := deposit_settled hp₁ h'
  obtain ⟨hclock, hconfig⟩ := Request.clock_config_of_ok (r := .deposit d) h
  rw [hclock, hconfig] at hrun'
  rw [haddress, hcoins] at hsend'
  -- the store and the bank of the other order
  obtain ⟨s, hfirst, hsecond⟩ := Operation.deposit_swap hp hpriced hpool
    (hsolvent.active _ _ hp) hsolvent.positions hcovered hrun hrun'
  obtain ⟨b₁, b₂, hpay, hpay', hbalances⟩ := Bank.send_swap hd he hsend hsend'
  obtain ⟨metrics, hcall⟩ := exists_deposit (hpool ▸ hp) hfirst hpay
  obtain ⟨p₀, p₂, hp₀, hp₂, haddress₂, hcoins₂⟩ := Operation.deposit_pool hfirst
  rw [hpool] at hp₀ hp₂
  obtain rfl : p = p₀ := Option.some.inj (hp.symm.trans hp₀)
  rw [← haddress₂, ← hcoins₂] at hpay'
  obtain ⟨metrics', hcall'⟩ := exists_deposit
    (l := { l with store := s, bank := b₁, metrics := metrics }) hp₂ hsecond hpay'
  exact ⟨_, _, hcall, hcall', rfl, hbalances⟩

end Ledger

namespace Sample

/-- A deposit gives the pool its price. -/
def opened : List Action := [.request (.deposit (deposit 500 500 (-30) 30))]

/-- The net sum of a tick is then raised to the largest one that can be written, while its gross sum
stays at nothing. -/
def tilted : List Action :=
  opened ++ [.request (.changeTick pool.id (tick 10) .lower (Dec.wrap (2 ^ 254 - 1)) Table.empty),
    .request (.changeTick pool.id (tick 10) .upper (Dec.wrap (1 - 2 ^ 254)) Table.empty)]

end Sample

/-- Two deposits that meet at a tick, one below it and one above it. -/
theorem Ledger.deposit_order_sample :
    ∃ r q l₁ l₂ k₁ k₂,
      (Ledger.deposit (Sample.deposit 700 700 (-10) 10)).run
        (Sample.ledger.afterActions Sample.opened) = (.ok r, l₁) ∧
      (Ledger.deposit (Sample.deposit 500 500 10 20)).run l₁ = (.ok q, l₂) ∧
      (Ledger.deposit (Sample.deposit 500 500 10 20)).run
        (Sample.ledger.afterActions Sample.opened) = (.ok q, k₁) ∧
      (Ledger.deposit (Sample.deposit 700 700 (-10) 10)).run k₁ = (.ok r, k₂) ∧
      k₂.store = l₂.store := by
  obtain ⟨r, l₁, q, l₂, h, h'⟩ : ∃ r l₁ q l₂,
      (Ledger.deposit (Sample.deposit 700 700 (-10) 10)).run
        (Sample.ledger.afterActions Sample.opened) = (.ok r, l₁) ∧
      (Ledger.deposit (Sample.deposit 500 500 10 20)).run l₁ = (.ok q, l₂) :=
    Call.exists_of_isSome (by decide +kernel) (by decide +kernel)
  have hkept : ((Sample.ledger.afterActions Sample.opened).store.pools.get? Sample.pool.id).any
      (fun p => p.isUnpriced = false ∧ Sample.owner ≠ p.address) = true := by decide +kernel
  obtain ⟨p, hp, hpool⟩ := (Option.any_eq_true _ _).1 hkept
  obtain ⟨hpriced, howner⟩ := of_decide_eq_true hpool
  obtain ⟨k₁, k₂, hk, hk', hstore, -⟩ := Ledger.deposit_order
    (d := Sample.deposit 700 700 (-10) 10) (e := Sample.deposit 500 500 10 20)
    Sample.ledger_isFresh hp hpriced rfl howner howner
    (fun t _ _ => .inl (by simp [Sample.opened, Action.WritesTick])) h h'
  exact ⟨r, q, l₁, l₂, k₁, k₂, h, h', hk, hk', hstore⟩

/-- **At a tick that was written directly** one order can be accepted and the other one refused: the
second deposit fits only after the first one has lowered the net sum of the tick. -/
theorem Ledger.deposit_order_at_written_tick :
    Sample.ledger.store.IsFresh ∧
    (∃ p, (Sample.ledger.afterActions Sample.tilted).store.pools.get? Sample.pool.id = some p ∧
      p.isUnpriced = false ∧ Sample.owner ≠ p.address) ∧
    (∃ r l₁ q l₂, (Ledger.deposit (Sample.deposit 700 700 (-10) 10)).run
        (Sample.ledger.afterActions Sample.tilted) = (.ok r, l₁) ∧
      (Ledger.deposit (Sample.deposit 500 500 10 20)).run l₁ = (.ok q, l₂)) ∧
    ∀ q k₁, (Ledger.deposit (Sample.deposit 500 500 10 20)).run
      (Sample.ledger.afterActions Sample.tilted) ≠ (.ok q, k₁) := by
  have hkept : ((Sample.ledger.afterActions Sample.tilted).store.pools.get? Sample.pool.id).any
      (fun p => p.isUnpriced = false ∧ Sample.owner ≠ p.address) = true := by decide +kernel
  obtain ⟨p, hp, hpool⟩ := (Option.any_eq_true _ _).1 hkept
  refine ⟨Sample.ledger_isFresh, ⟨p, hp, of_decide_eq_true hpool⟩, ?_, ?_⟩
  · exact Call.exists_of_isSome (by decide +kernel) (by decide +kernel)
  · exact Call.ne_ok_of_isNone (by decide +kernel)

end RangeLedger
