import RangeLedger.Proofs.Bank.Transfers
import RangeLedger.Proofs.Ledger.Outcome
import RangeLedger.Proofs.Operation.Effect

/-!
# All or nothing

Five calls change the store of a ledger, and each does so in steps that may be refused after others
were made: a deposit prices the pool before it looks at the minima, a change of a position writes
its lower tick before its upper one, a crossing writes the tick before it adds to the accumulators,
and the bank is asked last. Here the five are taken as one family of requests. Each has an operation
that does its work on a store, and may have a payment in the tokens of its pool; and for all of them
there are two ends only, whatever the ledger holds. Either the ledger is what it was, because the
operation or the bank refused; or the operation has done all of its work on the store, and the bank
has made exactly the payment.

## Main results

* `Request.refused_by`: why a request was refused; the ledger is what it was.
* `Request.settled`: what a request did that was accepted.
* `Request.all_or_nothing`: the two together.
-/

namespace RangeLedger

/-- A call that changes the store of a ledger, with its answer. -/
inductive Request : Type → Type where
  | deposit (d : Deposit) : Request Receipt
  | withdraw (w : Withdrawal) : Request (Amount × Amount)
  | crossTick (id : PoolId) (t : Tick) : Request Dec
  | addIncentive (id : PoolId) (incentive : IncentiveId) : Request Unit
  | changeTick (id : PoolId) (t : Tick) (edge : Edge) (delta : Dec)
      (ids : OrderedSet IncentiveId) : Request Unit

/-- A payment in the two tokens of a pool. -/
structure Payment where
  payer : Address
  payee : Address
  amount0 : Amount
  amount1 : Amount

namespace Payment

/-- What a payment comes to in a denomination, which may be that of both tokens. -/
def amountIn (x : Payment) (p : Pool) (denom : String) : Nat :=
  (if p.token0 = denom then x.amount0.toNat else 0) +
    (if p.token1 = denom then x.amount1.toNat else 0)

/-- The bank has made a payment, and every balance has changed by that alone. -/
structure Made (x : Payment) (p : Pool) (b b' : Bank) : Prop where
  send : b.send x.payer x.payee (p.coins x.amount0 x.amount1) = .ok b'
  balance : ∀ owner denom, (b'.balance owner denom).val = (b.balance owner denom).val +
    (if x.payee = owner then (x.amountIn p denom : Int) else 0) -
    (if x.payer = owner then (x.amountIn p denom : Int) else 0)

/-- A payment that the bank sends is made. -/
theorem made_of_send {x : Payment} {p : Pool} {b b' : Bank}
    (h : b.send x.payer x.payee (p.coins x.amount0 x.amount1) = .ok b') : x.Made p b b' := by
  refine ⟨h, fun owner denom => ?_⟩
  have hbalance := Bank.balance_send h owner denom
  rw [Pool.amountOf_coins] at hbalance
  exact hbalance

end Payment

/-! ### The pool that is paid from or to -/

/-- The pool of a position that was changed is still there. -/
theorem Store.Repositioned.exists_pool {s s' : Store} {position : Position} {delta : Dec}
    (h : s.Repositioned position delta s') :
    ∃ p', s'.pools.get? position.key.pool = some p' := by
  obtain ⟨p, active, -, -, hpools⟩ := h.pools
  exact ⟨_, (hpools _).trans (if_pos rfl)⟩

namespace Operation

variable {s s' : Store} {now : Timestamp} {c : Config}

/-- A deposit leaves its pool in place, with its account and its tokens. -/
theorem deposit_pool {d : Deposit} {r : Receipt} (h : (deposit now c d).run s = (.ok r, s')) :
    ∃ p p', s.pools.get? d.pool = some p ∧ s'.pools.get? d.pool = some p' ∧
      p'.address = p.address ∧ p'.coins = p.coins := by
  obtain ⟨found, _, _, _, hfound, -, hpriced, -, hkey, -, -, hs⟩ := deposit_effect h
  obtain ⟨p', hp'⟩ := hs.exists_pool
  rw [hkey] at hp'
  refine ⟨found, p', hfound, hp', ?_⟩
  rw [hs.pool_eq (hpriced.get?_eq hfound) hp', hpriced.pool_eq]
  exact ⟨rfl, rfl⟩

/-- A withdrawal leaves its pool in place, with its account and its tokens. -/
theorem withdraw_pool {w : Withdrawal} {out : Amount × Amount}
    (h : (withdraw now c w).run s = (.ok out, s')) :
    ∃ p p', s.pools.get? w.pool = some p ∧ s'.pools.get? w.pool = some p' ∧
      p'.address = p.address ∧ p'.coins = p.coins := by
  obtain ⟨p, _, _, hp, -, hkey, -, -, -, -, -, -, hs⟩ := withdraw_effect h
  obtain ⟨p', hp'⟩ := hs.exists_pool
  rw [hkey] at hp'
  refine ⟨p, p', hp, hp', ?_⟩
  rw [hs.pool_eq hp hp']
  exact ⟨rfl, rfl⟩

end Operation

namespace Request

variable {α : Type}

/-- The call on the ledger. -/
def call : Request α → Call α
  | deposit d => Ledger.deposit d
  | withdraw w => Ledger.withdraw w
  | crossTick id t => Ledger.crossTick id t
  | addIncentive id incentive => Ledger.addIncentive id incentive
  | changeTick id t edge delta ids => Ledger.changeTick id t edge delta ids

/-- The operation that does the work on a store. -/
def operation (now : Timestamp) (c : Config) : Request α → Operation α
  | deposit d => Operation.deposit now c d
  | withdraw w => Operation.withdraw now c w
  | crossTick id t => Operation.crossTick now c.inactiveMode id t
  | addIncentive id incentive => Operation.addIncentive id incentive
  | changeTick id t edge delta ids => Operation.changeTick now id t edge delta ids

/-- The number of the pool that is asked for. -/
def pool : Request α → PoolId
  | deposit d => d.pool
  | withdraw w => w.pool
  | crossTick id _ => id
  | addIncentive id _ => id
  | changeTick id _ _ _ _ => id

/-- The payment that goes with an answer: from the owner to the account of the pool for a deposit,
the other way for a withdrawal, none for the other calls. -/
def payment (p : Pool) : Request α → α → Option Payment
  | deposit d, r => some ⟨d.owner, p.address, r.amount0, r.amount1⟩
  | withdraw w, out => some ⟨p.address, w.owner, out.1, out.2⟩
  | crossTick _ _, _ => none
  | addIncentive _ _, _ => none
  | changeTick _ _ _ _ _, _ => none

/-- The bank has made the payment that goes with an answer, and nothing else. -/
def Paid (r : Request α) (p : Pool) (a : α) (b b' : Bank) : Prop :=
  match r.payment p a with
  | some x => x.Made p b b'
  | none => b' = b

/-- The bank refuses the payment that goes with an answer. -/
def Unpaid (r : Request α) (p : Pool) (a : α) (b : Bank) (cause : BankError) : Prop :=
  ∃ x, r.payment p a = some x ∧
    b.send x.payer x.payee (p.coins x.amount0 x.amount1) = .error cause

variable {l l' : Ledger}

/-! ### Accepted requests -/

/-- An accepted operation that is staged leaves what it leaves on the store directly. -/
theorem stored_of_stage {x : Operation α} {a : α} (h : (Call.stage x).run l = (.ok a, l')) :
    x.run l.store = (.ok a, l'.store) ∧ l'.bank = l.bank := by
  rw [Call.stage] at h
  obtain ⟨s, bank, hrun, hbank, rfl⟩ := Call.run_transact_eq_ok_iff.1 h
  cases hbank
  exact ⟨hrun, rfl⟩

/-- A change of a tick is staged at the time on the clock. -/
theorem run_changeTick (id : PoolId) (t : Tick) (edge : Edge) (delta : Dec)
    (ids : OrderedSet IncentiveId) (l : Ledger) :
    (Ledger.changeTick id t edge delta ids).run l =
      (Call.stage (Operation.changeTick l.clock.now id t edge delta ids)).run l := by
  rw [Ledger.changeTick, Call.run_bind]
  rfl

/-- **What an accepted request did**: its operation succeeds on the store, with the same answer, and
leaves the store that is kept; and the payment that goes with the answer was made. -/
theorem settled {r : Request α} {a : α} (h : r.call.run l = (.ok a, l')) :
    (r.operation l.clock.now l.config).run l.store = (.ok a, l'.store) ∧
      ∃ p, l.store.pools.get? r.pool = some p ∧ r.Paid p a l.bank l'.bank := by
  cases r with
  | deposit d =>
    obtain ⟨s, p', bank, metrics, hrun, hp', hsend, rfl⟩ := Ledger.deposit_eq_ok h
    obtain ⟨p, q, hp, hq, haddress, hcoins⟩ := Operation.deposit_pool hrun
    obtain rfl : q = p' := Option.some.inj (hq.symm.trans hp')
    rw [haddress, hcoins] at hsend
    exact ⟨hrun, p, hp,
      Payment.made_of_send (x := ⟨d.owner, p.address, a.amount0, a.amount1⟩) hsend⟩
  | withdraw w =>
    obtain ⟨s, p', bank, metrics, hrun, hp', hsend, rfl⟩ := Ledger.withdraw_eq_ok h
    obtain ⟨p, q, hp, hq, haddress, hcoins⟩ := Operation.withdraw_pool hrun
    obtain rfl : q = p' := Option.some.inj (hq.symm.trans hp')
    rw [haddress, hcoins] at hsend
    exact ⟨hrun, p, hp, Payment.made_of_send (x := ⟨p.address, w.owner, a.1, a.2⟩) hsend⟩
  | crossTick id t =>
    obtain ⟨s, metrics, hrun, rfl⟩ := Ledger.crossTick_eq_ok h
    obtain ⟨p, -, -, hp, -⟩ := Operation.crossTick_eq_ok_iff.1 hrun
    exact ⟨hrun, p, hp, rfl⟩
  | addIncentive id incentive =>
    obtain ⟨s, hrun, rfl⟩ := Ledger.addIncentive_eq_ok h
    obtain ⟨p, hp, -⟩ := Operation.addIncentive_eq_ok_iff.1 hrun
    exact ⟨hrun, p, hp, rfl⟩
  | changeTick id t edge delta ids =>
    rw [call, run_changeTick] at h
    obtain ⟨hrun, hbank⟩ := stored_of_stage h
    obtain ⟨p, -, hp, -⟩ := Operation.changeTick_eq_ok_iff.1 hrun
    exact ⟨hrun, p, hp, hbank⟩

/-! ### Refused requests -/

/-- A staged operation moves no tokens, so only the operation can refuse. -/
theorem refused_of_stage {x : Operation α} {e : LedgerError}
    (h : (Call.stage x).run l = (.error e, l')) :
    l' = l ∧ ∃ s, x.run l.store = (.error e, s) := by
  rw [Call.stage] at h
  obtain ⟨hl, hrun | ⟨_, _, _, -, hbank, -⟩⟩ := Call.run_transact_eq_error_iff.1 h
  · exact ⟨hl, hrun⟩
  · cases hbank

/-- A transaction that pays in the tokens of a pool is refused by its operation or by the bank, if
the operation leaves that pool in place. -/
theorem refused_of_transact {x : Operation α} {id : PoolId} {e : LedgerError}
    {transfer : α × Pool → Bank → Except BankError Bank}
    (h : (Call.transact (do let a ← x; return (a, ← Operation.pool id)) transfer).run l =
      (.error e, l'))
    (hpool : ∀ a s, x.run l.store = (.ok a, s) → ∃ p, s.pools.get? id = some p) :
    l' = l ∧ ((∃ s, x.run l.store = (.error e, s)) ∨
      ∃ a s p cause, x.run l.store = (.ok a, s) ∧ s.pools.get? id = some p ∧
        transfer (a, p) l.bank = .error cause ∧ e = .bank cause) := by
  obtain ⟨hl, ⟨s, hs⟩ | ⟨⟨a, p⟩, s, cause, hs, hsend, he⟩⟩ := Call.run_transact_eq_error_iff.1 h
  · obtain hs | ⟨a, hs, hnone, -⟩ := Operation.run_withPool_eq_error_iff.1 hs
    · exact ⟨hl, .inl ⟨s, hs⟩⟩
    · -- the pool is looked up behind the operation, which has left it in place
      obtain ⟨p, hp⟩ := hpool a s hs
      rw [hnone] at hp
      cases hp
  · obtain ⟨hs, hp⟩ := Operation.run_withPool_eq_ok_iff.1 hs
    exact ⟨hl, .inr ⟨a, s, p, cause, hs, hp, hsend, he⟩⟩

/-- **A deposit that is refused** leaves the ledger as it is: either the store refuses it, or the
bank refuses its payment. -/
theorem refused_of_deposit {d : Deposit} {e : LedgerError}
    (h : (Ledger.deposit d).run l = (.error e, l')) :
    l' = l ∧ ((∃ s, (Operation.deposit l.clock.now l.config d).run l.store = (.error e, s)) ∨
      ∃ r s p cause, (Operation.deposit l.clock.now l.config d).run l.store = (.ok r, s) ∧
        l.store.pools.get? d.pool = some p ∧
        l.bank.send d.owner p.address (p.coins r.amount0 r.amount1) = .error cause ∧
        e = .bank cause) := by
  rw [Ledger.deposit] at h
  have htransact := Call.run_counted_eq_error Prod.fst h fun _ => Call.counts_twice _ _ _ _ _
  obtain ⟨hl, hrun | ⟨r, s, p', cause, hrun, hp', hsend, he⟩⟩ :=
    refused_of_transact htransact fun _ _ hrun => by
      obtain ⟨_, p', -, hp', -⟩ := Operation.deposit_pool hrun
      exact ⟨p', hp'⟩
  · exact ⟨hl, .inl hrun⟩
  · obtain ⟨p, q, hp, hq, haddress, hcoins⟩ := Operation.deposit_pool hrun
    obtain rfl : q = p' := Option.some.inj (hq.symm.trans hp')
    refine ⟨hl, .inr ⟨r, s, p, cause, hrun, hp, ?_, he⟩⟩
    rw [← haddress, ← hcoins]
    exact hsend

/-- **A withdrawal that is refused** leaves the ledger as it is: either the store refuses it, or the
bank refuses its payment. -/
theorem refused_of_withdraw {w : Withdrawal} {e : LedgerError}
    (h : (Ledger.withdraw w).run l = (.error e, l')) :
    l' = l ∧ ((∃ s, (Operation.withdraw l.clock.now l.config w).run l.store = (.error e, s)) ∨
      ∃ out s p cause, (Operation.withdraw l.clock.now l.config w).run l.store = (.ok out, s) ∧
        l.store.pools.get? w.pool = some p ∧
        l.bank.send p.address w.owner (p.coins out.1 out.2) = .error cause ∧
        e = .bank cause) := by
  rw [Ledger.withdraw] at h
  have htransact := Call.run_counted_eq_error Prod.fst h fun _ => Call.counts_twice _ _ _ _ _
  obtain ⟨hl, hrun | ⟨out, s, p', cause, hrun, hp', hsend, he⟩⟩ :=
    refused_of_transact htransact fun _ _ hrun => by
      obtain ⟨_, p', -, hp', -⟩ := Operation.withdraw_pool hrun
      exact ⟨p', hp'⟩
  · exact ⟨hl, .inl hrun⟩
  · obtain ⟨p, q, hp, hq, haddress, hcoins⟩ := Operation.withdraw_pool hrun
    obtain rfl : q = p' := Option.some.inj (hq.symm.trans hp')
    refine ⟨hl, .inr ⟨out, s, p, cause, hrun, hp, ?_, he⟩⟩
    rw [← haddress, ← hcoins]
    exact hsend

/-- **A crossing that is refused** leaves the ledger as it is: the store refuses it. -/
theorem refused_of_crossTick {id : PoolId} {t : Tick} {e : LedgerError}
    (h : (Ledger.crossTick id t).run l = (.error e, l')) :
    l' = l ∧ ∃ s, (Operation.crossTick l.clock.now l.config.inactiveMode id t).run l.store =
      (.error e, s) := by
  rw [Ledger.crossTick] at h
  exact refused_of_stage
    (Call.run_counted_eq_error (fun net => net) h fun _ => Call.counts_once _ _ _)

/-- **Why a request was refused**: its operation is refused on the store, or it succeeds there and
the bank refuses the payment. The ledger is what it was. -/
theorem refused_by {r : Request α} {e : LedgerError} (h : r.call.run l = (.error e, l')) :
    l' = l ∧ ((∃ s, (r.operation l.clock.now l.config).run l.store = (.error e, s)) ∨
      ∃ a s p cause, (r.operation l.clock.now l.config).run l.store = (.ok a, s) ∧
        l.store.pools.get? r.pool = some p ∧ r.Unpaid p a l.bank cause ∧ e = .bank cause) := by
  cases r with
  | deposit d =>
    obtain ⟨hl, hrun | ⟨r, s, p, cause, hrun, hp, hsend, he⟩⟩ := refused_of_deposit h
    · exact ⟨hl, .inl hrun⟩
    · exact ⟨hl, .inr ⟨r, s, p, cause, hrun, hp, ⟨_, rfl, hsend⟩, he⟩⟩
  | withdraw w =>
    obtain ⟨hl, hrun | ⟨out, s, p, cause, hrun, hp, hsend, he⟩⟩ := refused_of_withdraw h
    · exact ⟨hl, .inl hrun⟩
    · exact ⟨hl, .inr ⟨out, s, p, cause, hrun, hp, ⟨_, rfl, hsend⟩, he⟩⟩
  | crossTick id t =>
    obtain ⟨hl, hrun⟩ := refused_of_crossTick h
    exact ⟨hl, .inl hrun⟩
  | addIncentive id incentive =>
    obtain ⟨hl, hrun⟩ := refused_of_stage h
    exact ⟨hl, .inl hrun⟩
  | changeTick id t edge delta ids =>
    rw [call, run_changeTick] at h
    obtain ⟨hl, hrun⟩ := refused_of_stage h
    exact ⟨hl, .inl hrun⟩

/-- **All or nothing.** A request that is refused leaves the ledger as it was, and it is refused for
one of two reasons: its operation is refused on the store, or it succeeds there and the bank refuses
the payment. A request that is accepted leaves the store that its operation leaves when it runs on
the store directly, with the same answer, and the balances after the one payment that goes with the
answer. Nothing is asked of the store or of the balances. -/
theorem all_or_nothing (r : Request α) (l : Ledger) :
    (∀ e l', r.call.run l = (.error e, l') → l' = l ∧
      ((∃ s, (r.operation l.clock.now l.config).run l.store = (.error e, s)) ∨
        ∃ a s p cause, (r.operation l.clock.now l.config).run l.store = (.ok a, s) ∧
          l.store.pools.get? r.pool = some p ∧ r.Unpaid p a l.bank cause ∧ e = .bank cause)) ∧
    ∀ a l', r.call.run l = (.ok a, l') →
      (r.operation l.clock.now l.config).run l.store = (.ok a, l'.store) ∧
        ∃ p, l.store.pools.get? r.pool = some p ∧ r.Paid p a l.bank l'.bank :=
  ⟨fun _ _ h => refused_by h, fun _ _ h => settled h⟩

end Request
end RangeLedger
