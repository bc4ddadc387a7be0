import RangeLedger.Proofs.Operation.Outcome

/-!
# Refusals of operations

An operation is refused for a cause that one of its parts has. So a kind of causes that covers every
part covers the whole, and each operation is gone through once, with the causes that it can have.
The bank is never among them: operations move no tokens.

## Main results

* `Operation.RefusesOnly.changePosition`: the causes for which a change of a position is refused.
* `Operation.withdraw_refusesOnly`: the operation of a withdrawal is not refused by the bank.
-/

namespace RangeLedger

variable {α β : Type}

/-! ### Arithmetic -/

section

variable {kind : MathError → Prop} (hoverflow : kind .overflow)

include hoverflow

/-- A checked result fails by overflow. -/
theorem Dec.failsOnly_ofRaw (n : Int) : FailsOnly (ofRaw n) kind := by
  intro e h
  rw [(ofRaw_eq_error_iff.1 h).1]
  exact hoverflow

/-- A product fails by overflow. -/
theorem Dec.failsOnly_mul (a b : Dec) : FailsOnly (a.mul b) kind :=
  .ite (failsOnly_ofRaw hoverflow _) (.error hoverflow)

/-- A quotient fails by overflow or because it divides by zero. -/
theorem Dec.failsOnly_quo (hzero : kind .divisionByZero) (a b : Dec) : FailsOnly (a.quo b) kind :=
  .ite (.error hzero) <| .ite (failsOnly_ofRaw hoverflow _) (.error hoverflow)

/-- An amount fails by overflow or because it is negative. -/
theorem Dec.failsOnly_truncate (hnegative : ∀ a, kind (.negativeAmount a)) (a : Dec) :
    FailsOnly a.truncate kind := by
  refine .ite (.error (hnegative a)) ?_
  split
  next n _ => exact .ok n
  next => exact .error hoverflow

/-- The root of a tick fails by overflow, or because the tick has none. -/
theorem Tick.failsOnly_sqrtPrice (hbounds : ∀ t, kind (.tickOutOfBounds t))
    (hunderflow : ∀ t, kind (.sqrtPriceUnderflow t)) (t : Tick) : FailsOnly t.sqrtPrice kind :=
  .ite (.bind (Dec.failsOnly_ofRaw hoverflow _) fun root => .ite (.error (hunderflow t)) (.ok root))
    (.error (hbounds t))

/-- An amount of the first token fails by overflow or because it divides by zero. -/
theorem Liquidity.failsOnly_amount0 (hzero : kind .divisionByZero) (liquidity a b : Dec) :
    FailsOnly (amount0 liquidity a b) kind :=
  .bind (Dec.failsOnly_ofRaw hoverflow _) fun _ => .bind (Dec.failsOnly_mul hoverflow _ _) fun _ =>
    .bind (Dec.failsOnly_mul hoverflow _ _) fun _ => Dec.failsOnly_quo hoverflow hzero _ _

/-- An amount of the second token fails by overflow. -/
theorem Liquidity.failsOnly_amount1 (liquidity a b : Dec) :
    FailsOnly (amount1 liquidity a b) kind :=
  .bind (Dec.failsOnly_ofRaw hoverflow _) fun _ => Dec.failsOnly_mul hoverflow _ _

/-- What amounts of liquidity are refused for: their arithmetic. -/
theorem Pool.failsOnly_amounts (hzero : kind .divisionByZero) (p : Pool) (lower upper : Tick)
    (a b delta : Dec) : FailsOnly (p.amounts lower upper a b delta) kind := by
  have h0 (x y : Dec) := Liquidity.failsOnly_amount0 hoverflow hzero delta x y
  have h1 (x y : Dec) := Liquidity.failsOnly_amount1 hoverflow delta x y
  refine .ite ?_ (.ite ?_ ?_)
  · exact .bind (h0 _ _) fun _ => .bind (h1 _ _) fun _ => .ok _
  · exact .bind (h0 _ _) fun _ => .ok _
  · exact .bind (h1 _ _) fun _ => .ok _

end

/-- The causes for which a sum has no result: it leaves the range, or is a negative liquidity. -/
def MathError.OfSums : MathError → Prop
  | overflow => True
  | liquidityUnderflow _ _ => True
  | _ => False

/-- A sum fails as sums do. -/
theorem Dec.failsOnly_add (a b : Dec) : FailsOnly (a.add b) MathError.OfSums :=
  failsOnly_ofRaw trivial _

/-- A sum of liquidity fails as sums do. -/
theorem Liquidity.failsOnly_add (before delta : Dec) :
    FailsOnly (add before delta) MathError.OfSums :=
  .bind (before.failsOnly_add delta) fun after => .ite (.error trivial) (.ok after)

/-- A shift of a stake fails as sums do. -/
theorem Stake.failsOnly_shift (stake : Stake) (edge : Edge) (delta : Dec) :
    FailsOnly (stake.shift edge delta) MathError.OfSums := by
  refine .bind (Liquidity.failsOnly_add _ _) fun gross => ?_
  cases edge with
  | lower => exact .bind (Dec.failsOnly_add _ _) fun _ => .ok _
  | upper => exact .bind (Dec.failsOnly_ofRaw trivial _) fun _ => .ok _

/-- A shift of the active liquidity fails as sums do. -/
theorem Pool.failsOnly_shiftActive (p : Pool) (lower upper : Tick) (delta : Dec) :
    FailsOnly (p.shiftActive lower upper delta) MathError.OfSums :=
  .ite (.bind (Liquidity.failsOnly_add _ _) fun _ => .ok _) (.ok none)

/-! ### Checks and changes -/

/-- What a change of a tick is refused for: its sums, or an incentive without a record. -/
theorem TickState.failsOnly_change {kind : LedgerError → Prop}
    (hsums : ∀ m, m.OfSums → kind (.math m))
    (hincentive : ∀ id incentive, kind (.incentiveNotFound id incentive)) (t : TickState) (p : Pool)
    (now : Timestamp) (edge : Edge) (delta : Dec) (ids : OrderedSet IncentiveId) :
    FailsOnly (t.change p now edge delta ids) kind := by
  have hshift (t : TickState) : FailsOnly (t.shift edge delta) MathError.OfSums :=
    .bind (t.stake.failsOnly_shift edge delta) fun _ => .ok _
  refine .bind (.mapError_of (hshift _) hsums) fun shifted => .foldlM (fun state id => ?_) _ _
  rw [shiftIncentive]
  cases state.incentives.get? id with
  | none => exact .error (hincentive p.id id)
  | some record =>
    exact .mapError_of (.bind (record.stake.failsOnly_shift edge delta) fun _ => .ok _) hsums

/-- What a range is refused for. -/
theorem Pool.failsOnly_checkRange {kind : LedgerError → Prop}
    (hspacing : ∀ lower upper spacing, kind (.offSpacing lower upper spacing))
    (htick : ∀ t edge, kind (.invalidTick t edge))
    (hrange : ∀ lower upper, kind (.invalidRange lower upper)) (p : Pool) (c : Config)
    (lower upper : Tick) : FailsOnly (p.checkRange c lower upper) kind :=
  .ite (.error (hspacing lower upper p.spacing)) <| .ite (.error (htick lower .lower)) <|
    .ite (.error (htick upper .upper)) <| .ite (.error (hrange lower upper)) (.ok ())

/-- A commitment fails because it is another one. -/
theorem Position.failsOnly_checkCommitment {kind : LedgerError → Prop}
    (h : ∀ committed requested, kind (.commitmentMismatch committed requested)) (p : Position)
    (ids : OrderedSet IncentiveId) : FailsOnly (p.checkCommitment ids) kind :=
  .ite (.ok ()) (.error (h _ _))

/-- A cause that does not come from the bank. -/
def LedgerError.IsOwn : LedgerError → Prop
  | bank _ => False
  | _ => True

namespace Operation

/-- Every cause for which an operation is refused, on some store, is of some kind. -/
def RefusesOnly (x : Operation α) (kind : LedgerError → Prop) : Prop :=
  ∀ (s s' : Store) e, x.run s = (.error e, s') → kind e

namespace RefusesOnly

variable {kind : LedgerError → Prop}

/-- An answer is no refusal. -/
theorem pure (a : α) : RefusesOnly (Pure.pure a) kind := by
  intro s s' e h
  cases h

/-- A refusal is refused for its cause. -/
theorem throw {e : LedgerError} (h : kind e) :
    RefusesOnly (MonadExcept.throw e : Operation α) kind := by
  intro s s' e' h'
  cases h'
  exact h

/-- Operations one after the other are refused as each of them is. -/
theorem bind {x : Operation α} {f : α → Operation β} (hx : x.RefusesOnly kind)
    (hf : ∀ a, (f a).RefusesOnly kind) : (x >>= f).RefusesOnly kind := by
  intro s s' e h
  obtain h | ⟨a, s₁, -, h⟩ := run_bind_eq_error_iff.1 h
  · exact hx s s' e h
  · exact hf a s₁ s' e h

/-- A check is refused for the causes for which it fails. -/
theorem lift {x : Except LedgerError α} (h : FailsOnly x kind) :
    RefusesOnly (liftM x : Operation α) kind := by
  intro s s' e hrun
  exact h e (congrArg Prod.fst hrun)

/-- A computation is refused for the causes for which it fails. -/
theorem liftMath {x : Except MathError α} {causes : MathError → Prop} (hx : FailsOnly x causes)
    (h : ∀ m, causes m → kind (.math m)) : RefusesOnly (liftM x : Operation α) kind := by
  intro s s' e hrun
  have hfail : FailsOnly (x.mapError LedgerError.math) kind := .mapError_of hx h
  exact hfail e (congrArg Prod.fst hrun)

/-- An operation by cases is refused as the cases are. -/
theorem ite {b : Prop} [Decidable b] {x y : Operation α} (hx : x.RefusesOnly kind)
    (hy : y.RefusesOnly kind) : (if b then x else y).RefusesOnly kind := by
  split
  · exact hx
  · exact hy

/-- What stands behind a check plays no part where the check refuses. -/
theorem guard {b : Prop} [Decidable b] {e : LedgerError} {f : β → Operation α} {x : Operation α}
    (he : kind e) (hx : x.RefusesOnly kind) :
    (if b then (MonadExcept.throw e : Operation β) >>= f else x).RefusesOnly kind := by
  refine .ite ?_ hx
  intro s s' e' h
  cases h
  exact he

/-! ### Reads and writes -/

/-- Reading a pool is refused if there is none. -/
theorem pool {id : PoolId} (h : kind (.poolNotFound id)) : (pool id).RefusesOnly kind := by
  intro s s' e hrun
  obtain ⟨-, rfl, -⟩ := run_pool_eq_error_iff.1 hrun
  exact h

/-- Writing a pool is not refused. -/
theorem setPool (p : Pool) : (setPool p).RefusesOnly kind := by
  intro s s' e hrun
  cases hrun

/-- Looking for a tick is not refused. -/
theorem findTick (id : PoolId) (t : Tick) : (findTick id t).RefusesOnly kind := by
  intro s s' e hrun
  cases hrun

/-- Writing a tick is not refused. -/
theorem setTick (id : PoolId) (t : Tick) (state : TickState) :
    (setTick id t state).RefusesOnly kind := by
  intro s s' e hrun
  cases hrun

/-- Looking for a position is not refused. -/
theorem findPosition (key : PositionKey) : (findPosition key).RefusesOnly kind := by
  intro s s' e hrun
  cases hrun

/-- Writing a position is not refused. -/
theorem setPosition (p : Position) : (setPosition p).RefusesOnly kind := by
  intro s s' e hrun
  cases hrun

/-- Removing a position is not refused. -/
theorem erasePosition (key : PositionKey) : (erasePosition key).RefusesOnly kind := by
  intro s s' e hrun
  cases hrun

/-! ### Changes -/

/-- A change of a tick is refused for sums, for incentives that are missing, or for the pool. -/
theorem changeTick {id : PoolId} (hsums : ∀ m, m.OfSums → kind (.math m))
    (hincentive : ∀ id incentive, kind (.incentiveNotFound id incentive))
    (hpool : kind (.poolNotFound id)) (now : Timestamp) (t : Tick) (edge : Edge) (delta : Dec)
    (ids : OrderedSet IncentiveId) : (changeTick now id t edge delta ids).RefusesOnly kind :=
  .bind (.pool hpool) fun p => .bind (.findTick id t) fun _ =>
    .bind (.lift (TickState.failsOnly_change hsums hincentive _ p now edge delta ids))
      fun state => .setTick id t state

/-- **What a change of a position is refused for**: its sums, an incentive without a record at a
tick, or its pool. -/
theorem changePosition {position : Position} (hsums : ∀ m, m.OfSums → kind (.math m))
    (hincentive : ∀ id incentive, kind (.incentiveNotFound id incentive))
    (hpool : kind (.poolNotFound position.key.pool)) (now : Timestamp) (delta : Dec) :
    (changePosition now position delta).RefusesOnly kind := by
  have hkeep (liquidity : Dec) :
      (if liquidity.isZero then Operation.erasePosition position.key
        else Operation.setPosition { position with liquidity := liquidity }).RefusesOnly kind :=
    .ite (.erasePosition position.key) (.setPosition _)
  have hheld : (liftM (position.liquidity.add delta) : Operation Dec).RefusesOnly kind :=
    .liftMath (position.liquidity.failsOnly_add delta) hsums
  refine .bind (changeTick hsums hincentive hpool _ _ _ _ _) fun _ =>
    .bind (changeTick hsums hincentive hpool _ _ _ _ _) fun _ =>
    .bind (.pool hpool) fun p => .bind (.liftMath (p.failsOnly_shiftActive _ _ _) hsums)
      fun active => ?_
  cases active with
  | none => exact .bind hheld hkeep
  | some p' => exact .bind (.setPool p') fun _ => .bind hheld hkeep

end RefusesOnly

/-- **The operation of a withdrawal has its own causes of refusal**: it moves no tokens. -/
theorem withdraw_refusesOnly (now : Timestamp) (c : Config) (w : Withdrawal) :
    (withdraw now c w).RefusesOnly LedgerError.IsOwn := by
  have hmath {α : Type} (x : Except MathError α) :
      (liftM x : Operation α).RefusesOnly LedgerError.IsOwn := by
    have hall : FailsOnly x fun _ => True := fun _ _ => trivial
    exact .liftMath hall fun _ _ => trivial
  refine .bind (.pool trivial) fun p => .bind (.lift ?_) fun _ =>
    .bind (.findPosition w.key) fun found => ?_
  · exact p.failsOnly_checkRange (fun _ _ _ => trivial) (fun _ _ => trivial) (fun _ _ => trivial) c
      w.lower w.upper
  cases found with
  | none => exact .throw trivial
  | some position =>
    refine .bind (.lift ?_) fun _ => .guard trivial <| .guard trivial <|
      .bind (hmath _) fun _ =>
      .bind (.changePosition (fun _ _ => trivial) (fun _ _ => trivial) trivial now w.liquidity.neg)
        fun _ => .bind (hmath _) fun _ => .bind (hmath _) fun _ => .pure _
    exact position.failsOnly_checkCommitment (fun _ _ => trivial) w.incentives

end Operation

end RangeLedger
