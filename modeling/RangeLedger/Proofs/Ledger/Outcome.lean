import RangeLedger.Ledger.Swap
import RangeLedger.Proofs.Operation.Outcome
import RangeLedger.Proofs.Storage.Commit

/-!
# Outcomes of calls

A call runs an operation on an overlay and commits it together with a transfer. Seen from outside
it runs the operation on the store itself, and either both the store that the operation leaves and
the balances that the transfer leaves are kept, or the ledger stays as it was. For each call this
module says which of the two happens, and why.

## Main results

* `Call.run_transact_eq_ok_iff`, `Call.run_transact_eq_error_iff`: the two ends of a transaction.
* `Call.run_counted_eq_ok`, `Call.run_counted_eq_error`: the same for a call that is then counted.
* `Ledger.deposit_eq_ok`, `Ledger.withdraw_eq_ok`, `Ledger.crossTick_eq_ok`,
  `Ledger.addIncentive_eq_ok`: what an accepted call did.
* `Ledger.deposit_eq_error`, `Ledger.withdraw_eq_error`, `Ledger.crossTick_eq_error`,
  `Ledger.addIncentive_eq_error`: why a call was refused; the ledger is what it was.
-/

namespace RangeLedger

namespace Call

variable {α β : Type} {l l' : Ledger}

/-! ### Transactions -/

/-- A transaction runs its operation as if on the store itself. -/
theorem run_transact (x : Operation α) (transfer : α → Bank → Except BankError Bank) (l : Ledger) :
    (transact x transfer).run l =
      match x.run l.store with
      | (.error e, _) => (.error e, l)
      | (.ok a, s) =>
        match transfer a l.bank with
        | .error cause => (.error (.bank cause), l)
        | .ok bank => (.ok a, { l with store := s, bank := bank }) := by
  obtain ⟨hresult, hcommit⟩ := Operation.run_ofBase x l.store
  have hrun : x.run l.store =
      ((x.run (Overlay.ofBase l.store)).1, (x.run (Overlay.ofBase l.store)).2.commit) :=
    Prod.ext hresult.symm hcommit.symm
  rw [hrun]
  rw [transact, ofFunction, run, ExceptT.run_mk]
  simp only [StateT.run]
  rcases x.run (Overlay.ofBase l.store) with ⟨_ | a, overlay⟩
  · rfl
  · rfl

/-- **An accepted transaction** leaves the store that its operation leaves when it runs on the
store directly, and the balances after its transfer. -/
theorem run_transact_eq_ok_iff {x : Operation α} {transfer : α → Bank → Except BankError Bank}
    {a : α} :
    (transact x transfer).run l = (.ok a, l') ↔
      ∃ s bank, x.run l.store = (.ok a, s) ∧ transfer a l.bank = .ok bank ∧
        l' = { l with store := s, bank := bank } := by
  rw [run_transact]
  constructor
  · intro h
    rcases hx : x.run l.store with ⟨e | a', s⟩
    · simp only [hx] at h
      cases h
    · cases htransfer : transfer a' l.bank with
      | error e =>
        simp only [hx, htransfer] at h
        cases h
      | ok bank =>
        simp only [hx, htransfer] at h
        cases h
        exact ⟨s, bank, rfl, htransfer, rfl⟩
  · rintro ⟨s, bank, hx, htransfer, rfl⟩
    simp only [hx, htransfer]

/-- **A refused transaction** was refused by its operation or by the bank, and changed nothing. -/
theorem run_transact_eq_error_iff {x : Operation α} {transfer : α → Bank → Except BankError Bank}
    {e : LedgerError} :
    (transact x transfer).run l = (.error e, l') ↔
      l' = l ∧ ((∃ s, x.run l.store = (.error e, s)) ∨
        ∃ a s cause, x.run l.store = (.ok a, s) ∧ transfer a l.bank = .error cause ∧
          e = .bank cause) := by
  rw [run_transact]
  constructor
  · intro h
    rcases hx : x.run l.store with ⟨e' | a, s⟩
    · simp only [hx] at h
      cases h
      exact ⟨rfl, .inl ⟨s, rfl⟩⟩
    · cases htransfer : transfer a l.bank with
      | error cause =>
        simp only [hx, htransfer] at h
        cases h
        exact ⟨rfl, .inr ⟨a, s, cause, rfl, htransfer, rfl⟩⟩
      | ok bank =>
        simp only [hx, htransfer] at h
        cases h
  · rintro ⟨rfl, ⟨s, hx⟩ | ⟨a, s, cause, hx, htransfer, rfl⟩⟩
    · simp only [hx]
    · simp only [hx, htransfer]

/-! ### Reads -/

/-- A read answers what its operation answers on the store, and changes nothing. -/
theorem run_read_eq_ok {x : Operation α} {a : α} (h : (read x).run l = (.ok a, l')) :
    (∃ s, x.run l.store = (.ok a, s)) ∧ l' = l := by
  have hanswer : (x.run l.store).1 = .ok a := congrArg Prod.fst h
  exact ⟨⟨_, Prod.ext hanswer rfl⟩, (congrArg Prod.snd h).symm⟩

/-- A call that reads leaves the ledger. -/
theorem run_read_keeps {x : Operation α} {outcome : Except LedgerError α}
    (h : (read x).run l = (outcome, l')) : l' = l :=
  (congrArg Prod.snd h).symm

/-- A computation becomes a call that leaves the ledger, and an error of it that of the call. -/
theorem run_liftMath (x : Except MathError α) (l : Ledger) :
    (liftM x : Call α).run l = (x.mapError LedgerError.math, l) := rfl

/-! ### Sequences of calls -/

/-- A sequence of two calls succeeds just if the first succeeds and the second does from there. -/
theorem run_bind_eq_ok_iff {x : Call α} {f : α → Call β} {b : β} :
    (x >>= f).run l = (.ok b, l') ↔
      ∃ a l₁, x.run l = (.ok a, l₁) ∧ (f a).run l₁ = (.ok b, l') := by
  rw [run_bind]
  rcases x.run l with ⟨e | a, l₁⟩
  · simp
  · constructor
    · intro h
      exact ⟨a, l₁, rfl, h⟩
    · rintro ⟨_, _, h, hf⟩
      cases h
      exact hf

/-- A sequence of two calls fails just if the first fails, or the second does from where the first
led. -/
theorem run_bind_eq_error_iff {x : Call α} {f : α → Call β} {e : LedgerError} :
    (x >>= f).run l = (.error e, l') ↔
      x.run l = (.error e, l') ∨
        ∃ a l₁, x.run l = (.ok a, l₁) ∧ (f a).run l₁ = (.error e, l') := by
  rw [run_bind]
  rcases x.run l with ⟨e' | a, l₁⟩
  · simp
  · constructor
    · intro h
      exact .inr ⟨a, l₁, rfl, h⟩
    · rintro (h | ⟨_, _, h, hf⟩)
      · cases h
      · cases h
        exact hf

/-- What is found of an answer by evaluation. -/
theorem exists_of_any {x : Call α} {q : α → Prop} [DecidablePred q]
    (h : (x.run l).1.toOption.any (fun a => decide (q a)) = true) :
    ∃ a l', x.run l = (.ok a, l') ∧ q a := by
  rcases hrun : x.run l with ⟨e | a, l'⟩
  · rw [hrun] at h
    cases h
  · rw [hrun] at h
    exact ⟨a, l', rfl, of_decide_eq_true h⟩

/-- A call that gives no answer is not accepted. -/
theorem ne_ok_of_isNone {x : Call α} (h : (x.run l).1.toOption.isNone = true) (a : α)
    (l' : Ledger) : x.run l ≠ (.ok a, l') := by
  intro hrun
  rw [hrun] at h
  cases h

/-! ### Calls that are counted -/

/-- A call that always gives a certain answer, and changes nothing but the counters. -/
def Counts (x : Call α) (a : α) : Prop :=
  ∀ l, ∃ metrics, x.run l = (.ok a, { l with metrics := metrics })

/-- A call without effects counts nothing. -/
theorem counts_pure (a : α) : Counts (pure a) a := fun l => ⟨l.metrics, rfl⟩

/-- What is recorded is counted, if counting is configured. -/
theorem counts_record (name : String) (value : Float) : Counts (record name value) () := by
  intro l
  by_cases h : l.config.metricsEnabled
  · refine ⟨l.metrics.record l.source name value, ?_⟩
    change (Except.ok (), if l.config.metricsEnabled then _ else l) = _
    rw [if_pos h]
  · refine ⟨l.metrics, ?_⟩
    change (Except.ok (), if l.config.metricsEnabled then _ else l) = _
    rw [if_neg h]

/-- Two calls that are counted, one after the other, are a call that is counted. -/
theorem Counts.bind {x : Call α} {f : α → Call β} {a : α} {b : β} (hx : Counts x a)
    (hf : Counts (f a) b) : Counts (x >>= f) b := by
  intro l
  obtain ⟨metrics, hx⟩ := hx l
  obtain ⟨metrics', hf⟩ := hf { l with metrics := metrics }
  exact ⟨metrics', by rw [run_bind, hx]; exact hf⟩

/-- A call that ends by being counted under one name. -/
theorem counts_once (name : String) (value : Float) (a : α) :
    Counts (record name value >>= fun _ => pure a) a :=
  (counts_record name value).bind (counts_pure a)

/-- A call that ends by being counted under two names. -/
theorem counts_twice (name name' : String) (value value' : Float) (a : α) :
    Counts (record name value >>= fun _ => record name' value' >>= fun _ => pure a) a :=
  (counts_record name value).bind (counts_once name' value' a)

section

variable {x : Timestamp → Config → Operation α} {transfer : α → Bank → Except BankError Bank}
  {tail : α → Call β}

/-- **An accepted call** is a transaction at the time on the clock and under the configuration of
the ledger; counting it then changes the counters. -/
theorem run_counted_eq_ok (answer : α → β) {b : β}
    (h : (now >>= fun t => config >>= fun c => transact (x t c) transfer >>= tail).run l =
      (.ok b, l')) (htail : ∀ a, Counts (tail a) (answer a)) :
    ∃ a s bank metrics, b = answer a ∧ (x l.clock.now l.config).run l.store = (.ok a, s) ∧
      transfer a l.bank = .ok bank ∧
      l' = { l with store := s, bank := bank, metrics := metrics } := by
  change (transact (x l.clock.now l.config) transfer >>= tail).run l = _ at h
  obtain ⟨a, l₁, htransact, hcount⟩ := run_bind_eq_ok_iff.1 h
  obtain ⟨s, bank, hrun, htransfer, rfl⟩ := run_transact_eq_ok_iff.1 htransact
  obtain ⟨metrics, hmetrics⟩ := htail a { l with store := s, bank := bank }
  rw [hmetrics] at hcount
  cases hcount
  exact ⟨a, s, bank, metrics, rfl, hrun, htransfer, rfl⟩

/-- A call is accepted when its operation succeeds and its transfer is made. -/
theorem run_counted_of_ok (answer : α → β) (htail : ∀ a, Counts (tail a) (answer a)) {a : α}
    {s : Store} {bank : Bank} (hrun : (x l.clock.now l.config).run l.store = (.ok a, s))
    (htransfer : transfer a l.bank = .ok bank) :
    ∃ metrics,
      (now >>= fun t => config >>= fun c => transact (x t c) transfer >>= tail).run l =
        (.ok (answer a), { l with store := s, bank := bank, metrics := metrics }) := by
  obtain ⟨metrics, hmetrics⟩ := htail a { l with store := s, bank := bank }
  refine ⟨metrics, ?_⟩
  change (transact (x l.clock.now l.config) transfer >>= tail).run l = _
  exact run_bind_eq_ok_iff.2
    ⟨a, _, run_transact_eq_ok_iff.2 ⟨s, bank, hrun, htransfer, rfl⟩, hmetrics⟩

/-- **A refused call** is a refused transaction. -/
theorem run_counted_eq_error (answer : α → β) {e : LedgerError}
    (h : (now >>= fun t => config >>= fun c => transact (x t c) transfer >>= tail).run l =
      (.error e, l')) (htail : ∀ a, Counts (tail a) (answer a)) :
    (transact (x l.clock.now l.config) transfer).run l = (.error e, l') := by
  change (transact (x l.clock.now l.config) transfer >>= tail).run l = _ at h
  obtain h | ⟨a, l₁, -, hcount⟩ := run_bind_eq_error_iff.1 h
  · exact h
  · obtain ⟨metrics, hmetrics⟩ := htail a l₁
    rw [hmetrics] at hcount
    cases hcount

end

end Call

/-! ### Operations that answer their pool -/

namespace Operation

/-- An operation succeeds together with the pool just if it succeeds and the pool is there after it.
-/
theorem run_withPool_eq_ok_iff {α : Type} {x : Operation α} {id : PoolId} {s s' : Store}
    {a : α} {p : Pool} :
    (do let a ← x; return (a, ← pool id) : Operation (α × Pool)).run s = (.ok (a, p), s') ↔
      x.run s = (.ok a, s') ∧ s'.pools.get? id = some p := by
  simp only [run_bind_eq_ok_iff, run_pool_eq_ok_iff, run_pure_eq_ok_iff]
  constructor
  · rintro ⟨_, s₁, hx, _, _, ⟨hp, rfl⟩, heq, rfl⟩
    cases heq
    exact ⟨hx, hp⟩
  · rintro ⟨hx, hp⟩
    exact ⟨a, s', hx, p, s', ⟨hp, rfl⟩, rfl, rfl⟩

/-- An operation fails together with the pool just if it fails, or the pool is not there after it.
-/
theorem run_withPool_eq_error_iff {α : Type} {x : Operation α} {id : PoolId} {s s' : Store}
    {e : LedgerError} :
    (do let a ← x; return (a, ← pool id) : Operation (α × Pool)).run s = (.error e, s') ↔
      x.run s = (.error e, s') ∨
        ∃ a, x.run s = (.ok a, s') ∧ s'.pools.get? id = none ∧ e = .poolNotFound id := by
  simp only [run_bind_eq_error_iff, run_pool_eq_error_iff]
  constructor
  · rintro (h | ⟨a, _, hx, ⟨hnone, rfl, rfl⟩ | ⟨p, _, -, h⟩⟩)
    · exact .inl h
    · exact .inr ⟨a, hx, hnone, rfl⟩
    · cases h
  · rintro (h | ⟨a, hx, hnone, rfl⟩)
    · exact .inl h
    · exact .inr ⟨a, s', hx, .inl ⟨hnone, rfl, rfl⟩⟩

end Operation

namespace Ledger

variable {l l' : Ledger}

/-! ### Deposits -/

/-- **An accepted deposit** leaves what its operation leaves, and has moved the amounts on its
receipt from the owner to the account of the pool. -/
theorem deposit_eq_ok {d : Deposit} {r : Receipt} (h : (deposit d).run l = (.ok r, l')) :
    ∃ s p bank metrics, (Operation.deposit l.clock.now l.config d).run l.store = (.ok r, s) ∧
      s.pools.get? d.pool = some p ∧
      l.bank.send d.owner p.address (p.coins r.amount0 r.amount1) = .ok bank ∧
      l' = { l with store := s, bank := bank, metrics := metrics } := by
  rw [deposit] at h
  obtain ⟨⟨_, p⟩, s, bank, metrics, rfl, hrun, hsend, rfl⟩ :=
    Call.run_counted_eq_ok Prod.fst h fun _ => Call.counts_twice _ _ _ _ _
  obtain ⟨hdeposit, hp⟩ := Operation.run_withPool_eq_ok_iff.1 hrun
  exact ⟨s, p, bank, metrics, hdeposit, hp, hsend, rfl⟩

/-- A deposit is accepted when its operation succeeds and the owner can pay. -/
theorem deposit_of_ok {d : Deposit} {r : Receipt} {s : Store} {p : Pool} {bank : Bank}
    (hrun : (Operation.deposit l.clock.now l.config d).run l.store = (.ok r, s))
    (hp : s.pools.get? d.pool = some p)
    (hsend : l.bank.send d.owner p.address (p.coins r.amount0 r.amount1) = .ok bank) :
    ∃ metrics, (deposit d).run l =
      (.ok r, { l with store := s, bank := bank, metrics := metrics }) := by
  rw [deposit]
  refine Call.run_counted_of_ok (a := (r, p)) Prod.fst
    (fun _ => Call.counts_twice _ _ _ _ _) ?_ hsend
  exact Operation.run_withPool_eq_ok_iff.2 ⟨hrun, hp⟩

/-- **A refused deposit** leaves the ledger as it was. -/
theorem deposit_eq_error {d : Deposit} {e : LedgerError}
    (h : (deposit d).run l = (.error e, l')) : l' = l := by
  rw [deposit] at h
  have htransact := Call.run_counted_eq_error Prod.fst h fun _ => Call.counts_twice _ _ _ _ _
  exact (Call.run_transact_eq_error_iff.1 htransact).1

/-! ### Withdrawals -/

/-- **An accepted withdrawal** leaves what its operation leaves, and has moved the amounts that it
answers from the account of the pool to the owner. -/
theorem withdraw_eq_ok {w : Withdrawal} {out : Amount × Amount}
    (h : (withdraw w).run l = (.ok out, l')) :
    ∃ s p bank metrics, (Operation.withdraw l.clock.now l.config w).run l.store = (.ok out, s) ∧
      s.pools.get? w.pool = some p ∧
      l.bank.send p.address w.owner (p.coins out.1 out.2) = .ok bank ∧
      l' = { l with store := s, bank := bank, metrics := metrics } := by
  rw [withdraw] at h
  obtain ⟨⟨_, p⟩, s, bank, metrics, rfl, hrun, hsend, rfl⟩ :=
    Call.run_counted_eq_ok Prod.fst h fun _ => Call.counts_twice _ _ _ _ _
  obtain ⟨hwithdraw, hp⟩ := Operation.run_withPool_eq_ok_iff.1 hrun
  exact ⟨s, p, bank, metrics, hwithdraw, hp, hsend, rfl⟩

/-- A withdrawal is accepted when its operation succeeds and the account of the pool can pay. -/
theorem withdraw_of_ok {w : Withdrawal} {out : Amount × Amount} {s : Store} {p : Pool} {bank : Bank}
    (hrun : (Operation.withdraw l.clock.now l.config w).run l.store = (.ok out, s))
    (hp : s.pools.get? w.pool = some p)
    (hsend : l.bank.send p.address w.owner (p.coins out.1 out.2) = .ok bank) :
    ∃ metrics, (withdraw w).run l =
      (.ok out, { l with store := s, bank := bank, metrics := metrics }) := by
  rw [withdraw]
  refine Call.run_counted_of_ok (a := (out, p)) Prod.fst
    (fun _ => Call.counts_twice _ _ _ _ _) ?_ hsend
  exact Operation.run_withPool_eq_ok_iff.2 ⟨hrun, hp⟩

/-- **A refused withdrawal** leaves the ledger as it was; it was refused by its operation, or by the
bank when the account of the pool was to pay. -/
theorem withdraw_eq_error {w : Withdrawal} {e : LedgerError}
    (h : (withdraw w).run l = (.error e, l')) :
    l' = l ∧
      ((∃ s, (Operation.withdraw l.clock.now l.config w).run l.store = (.error e, s)) ∨
        e = .poolNotFound w.pool ∨
        ∃ out s p cause, (Operation.withdraw l.clock.now l.config w).run l.store = (.ok out, s) ∧
          s.pools.get? w.pool = some p ∧
          l.bank.send p.address w.owner (p.coins out.1 out.2) = .error cause ∧
          e = .bank cause) := by
  rw [withdraw] at h
  have htransact := Call.run_counted_eq_error Prod.fst h fun _ => Call.counts_twice _ _ _ _ _
  obtain ⟨rfl, ⟨s, hs⟩ | ⟨⟨out, p⟩, s, cause, hs, hsend, rfl⟩⟩ :=
    Call.run_transact_eq_error_iff.1 htransact
  · refine ⟨rfl, ?_⟩
    obtain hs | ⟨_, -, -, rfl⟩ := Operation.run_withPool_eq_error_iff.1 hs
    · exact .inl ⟨s, hs⟩
    · exact .inr (.inl rfl)
  · obtain ⟨hwithdraw, hp⟩ := Operation.run_withPool_eq_ok_iff.1 hs
    exact ⟨rfl, .inr (.inr ⟨out, s, p, cause, hwithdraw, hp, hsend, rfl⟩)⟩

/-! ### Crossings and incentives -/

/-- **An accepted crossing** is one of the store, and changes nothing else but the counters. -/
theorem crossTick_eq_ok {id : PoolId} {t : Tick} {net : Dec}
    (h : (crossTick id t).run l = (.ok net, l')) :
    ∃ s metrics,
      (Operation.crossTick l.clock.now l.config.inactiveMode id t).run l.store = (.ok net, s) ∧
        l' = { l with store := s, metrics := metrics } := by
  simp only [crossTick, Call.stage] at h
  obtain ⟨_, s, bank, metrics, rfl, hrun, hbank, rfl⟩ :=
    Call.run_counted_eq_ok (fun net => net) h fun _ => Call.counts_once _ _ _
  cases hbank
  exact ⟨s, metrics, hrun, rfl⟩

/-- A refused crossing changes nothing. -/
theorem crossTick_eq_error {id : PoolId} {t : Tick} {e : LedgerError}
    (h : (crossTick id t).run l = (.error e, l')) : l' = l := by
  simp only [crossTick, Call.stage] at h
  have htransact := Call.run_counted_eq_error (fun net => net) h fun _ => Call.counts_once _ _ _
  exact (Call.run_transact_eq_error_iff.1 htransact).1

/-- **An accepted incentive** is one of the store, and changes nothing else but the counters. -/
theorem addIncentive_eq_ok {id : PoolId} {incentive : IncentiveId} {u : Unit}
    (h : (addIncentive id incentive).run l = (.ok u, l')) :
    ∃ s, (Operation.addIncentive id incentive).run l.store = (.ok u, s) ∧
      l' = { l with store := s } := by
  rw [addIncentive, Call.stage] at h
  obtain ⟨s, bank, hrun, hbank, rfl⟩ := Call.run_transact_eq_ok_iff.1 h
  cases hbank
  exact ⟨s, hrun, rfl⟩

/-- A refused incentive changes nothing. -/
theorem addIncentive_eq_error {id : PoolId} {incentive : IncentiveId} {e : LedgerError}
    (h : (addIncentive id incentive).run l = (.error e, l')) : l' = l := by
  rw [addIncentive, Call.stage] at h
  exact (Call.run_transact_eq_error_iff.1 h).1

/-! ### Looking -/

/-- Asking for a pool tells what is stored. -/
theorem pool_eq_ok {id : PoolId} {p : Pool} (h : (pool id).run l = (.ok p, l')) :
    l.store.pools.get? id = some p ∧ l' = l := by
  obtain ⟨⟨s, hs⟩, hl⟩ := Call.run_read_eq_ok h
  exact ⟨(Operation.run_pool_eq_ok_iff.1 hs).1, hl⟩

/-- What a ledger answers for a tick of one of its pools. -/
theorem run_tickState {id : PoolId} {p : Pool} (hp : l.store.pools.get? id = some p) (t : Tick) :
    (tickState id t).run l = (.ok (l.store.tickAt id t), l) := by
  have hrun : (Operation.tickState id t).run l.store = (.ok (l.store.tickAt id t), l.store) :=
    Operation.tickState_eq_ok_iff.2 ⟨p, hp, rfl, rfl⟩
  change (((Operation.tickState id t).run l.store).1, l) = _
  rw [hrun]

/-- Asking for the ticks of a pool tells those that are kept. -/
theorem initializedTicks_eq_ok {id : PoolId} {ticks : Map Tick TickState}
    (h : (initializedTicks id).run l = (.ok ticks, l')) :
    ticks = l.store.ticksOf id ∧ l' = l := by
  obtain ⟨⟨s, hs⟩, hl⟩ := Call.run_read_eq_ok h
  obtain ⟨p, -, hticks, -⟩ := Operation.initializedTicks_eq_ok_iff.1 hs
  exact ⟨hticks, hl⟩

end Ledger

end RangeLedger
