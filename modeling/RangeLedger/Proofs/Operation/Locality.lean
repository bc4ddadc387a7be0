import RangeLedger.Proofs.Operation.Outcome
import RangeLedger.Proofs.Storage.Locality
import RangeLedger.Proofs.Tick.Stakes

/-!
# Operations on one pool

Every operation reads and writes in the part of one pool, the one that it is asked for. It never
lists pools or positions, it asks for ticks and positions under the number of its pool only, and a
pool that it keeps is one that it has read, with the number unchanged.

## Main results

* `Operation.WorksOn.changePosition`: a change of a position works on the pool of the position.
* `Operation.deposit_worksOn`, `Operation.withdraw_worksOn`, `Operation.changeTick_worksOn`,
  `Operation.crossTick_worksOn`, `Operation.addIncentive_worksOn`: the operations work on the pool
  that they are asked for.
-/

namespace RangeLedger

variable {α β : Type}

/-! ### The number of a pool -/

/-- A first price leaves the number of the pool. -/
theorem Pool.id_of_openWith {p opened : Pool} {amount0 amount1 : Amount}
    (h : p.openWith amount0 amount1 = .ok opened) : opened.id = p.id := by
  rw [openWith] at h
  split at h
  · cases h
  · simp only [mapError_eq_ok_iff, bind_eq_ok_iff] at h
    obtain ⟨price, -, root, -, tick, -, heq⟩ := h
    cases heq
    rfl

/-- A change of the active liquidity leaves the number of the pool. -/
theorem Pool.id_of_shiftActive {p p' : Pool} {lower upper : Tick} {delta : Dec}
    (h : p.shiftActive lower upper delta = .ok (some p')) : p'.id = p.id := by
  rw [shiftActive] at h
  split at h
  · obtain ⟨active, -, heq⟩ := bind_eq_ok_iff.1 h
    cases heq
    rfl
  · cases h

/-- Adding to the accumulators leaves the number of the pool. -/
theorem Pool.id_of_accrue {p p' : Pool} {records : Map IncentiveId TickIncentive}
    (h : p.accrue records = .ok p') : p'.id = p.id := by
  rw [accrue_eq h]

namespace Operation

/-- An operation works on one pool, and a result that it ends with is of some kind. -/
def WorksOn (id : PoolId) (kind : α → Prop) (x : Operation α) : Prop :=
  Script.WorksOn id (fun outcome => ∀ a, outcome = .ok a → kind a) (ExceptT.run x)

namespace WorksOn

variable {id : PoolId} {kind : α → Prop} {kind' : β → Prop}

/-- An answer touches no pool. -/
theorem pure {a : α} (h : kind a) : WorksOn id kind (Pure.pure a) := by
  rintro _ ⟨⟩
  exact h

/-- A refusal touches no pool. -/
theorem throw (e : LedgerError) : WorksOn id kind (MonadExcept.throw e : Operation α) := by
  rintro a ⟨⟩

/-- Operations on a pool may follow one another, if the second works on what the first answers. -/
theorem bind {x : Operation α} {f : α → Operation β} (hx : x.WorksOn id kind)
    (hf : ∀ a, kind a → (f a).WorksOn id kind') : (x >>= f).WorksOn id kind' := by
  refine Script.WorksOn.bind hx fun outcome houtcome => ?_
  cases outcome with
  | error e => rintro a ⟨⟩
  | ok a => exact hf a (houtcome a rfl)

/-- The outcome of a computation touches nothing. -/
theorem lift (x : Except LedgerError α) : WorksOn id (fun a => x = .ok a) (liftM x) :=
  fun _ h => h

/-- A computation touches no pool. -/
theorem liftMath (x : Except MathError α) :
    WorksOn id (fun a => x = .ok a) (liftM x : Operation α) :=
  fun _ h => mapError_eq_ok_iff.1 h

/-- An operation by cases works on the pool of both cases. -/
theorem ite {b : Prop} [Decidable b] {x y : Operation α} (hx : x.WorksOn id kind)
    (hy : y.WorksOn id kind) : (if b then x else y).WorksOn id kind := by
  split
  · exact hx
  · exact hy

/-- What stands behind a check works on a pool if the whole does: a refusal touches nothing. -/
theorem guard {b : Prop} [Decidable b] {e : LedgerError} {f : β → Operation α} {x : Operation α}
    (hx : x.WorksOn id kind) :
    (if b then (MonadExcept.throw e : Operation β) >>= f else x).WorksOn id kind :=
  .ite (.throw e) hx

/-! ### Reads and writes -/

/-- Reading a pool answers the pool with that number. -/
theorem pool (id : PoolId) : WorksOn id (fun p => p.id = id) (pool id) := by
  refine ⟨rfl, fun found hfound => ?_⟩
  cases found with
  | none => rintro p ⟨⟩
  | some p =>
    rintro _ ⟨⟩
    exact hfound p rfl

/-- Writing a pool works on that pool. -/
theorem setPool {p : Pool} (h : p.id = id) : WorksOn id (fun _ => True) (setPool p) :=
  ⟨h, fun _ _ => trivial⟩

/-- Reading a tick works on its pool. -/
theorem findTick (id : PoolId) (t : Tick) : WorksOn id (fun _ => True) (findTick id t) :=
  ⟨rfl, fun _ _ _ => trivial⟩

/-- Writing a tick works on its pool. -/
theorem setTick (id : PoolId) (t : Tick) (state : TickState) :
    WorksOn id (fun _ => True) (setTick id t state) :=
  ⟨rfl, fun _ _ => trivial⟩

/-- Reading a position works on its pool, and answers one with that key. -/
theorem findPosition {key : PositionKey} (h : key.pool = id) :
    WorksOn id (fun found => ∀ p, found = some p → p.key = key) (findPosition key) := by
  refine ⟨h, fun found hfound => ?_⟩
  rintro _ ⟨⟩
  exact hfound

/-- Writing a position works on its pool. -/
theorem setPosition {p : Position} (h : p.key.pool = id) :
    WorksOn id (fun _ => True) (setPosition p) :=
  ⟨h, fun _ _ => trivial⟩

/-- Removing a position works on its pool. -/
theorem erasePosition {key : PositionKey} (h : key.pool = id) :
    WorksOn id (fun _ => True) (erasePosition key) :=
  ⟨h, fun _ _ => trivial⟩

/-- Reading the state of a tick works on its pool. -/
theorem tickState (id : PoolId) (t : Tick) : WorksOn id (fun _ => True) (tickState id t) :=
  .bind (.pool id) fun _ _ => .bind (.findTick id t) fun _ _ => .pure trivial

/-! ### Changes -/

/-- Changing a tick works on its pool. -/
theorem changeTick (now : Timestamp) (id : PoolId) (t : Tick) (edge : Edge) (delta : Dec)
    (ids : OrderedSet IncentiveId) :
    WorksOn id (fun _ => True) (changeTick now id t edge delta ids) :=
  .bind (.pool id) fun _ _ => .bind (.findTick id t) fun _ _ => .bind (.lift _) fun state _ =>
    .setTick id t state

/-- **A change of a position** works on the pool of the position. -/
theorem changePosition {position : Position} (h : position.key.pool = id) (now : Timestamp)
    (delta : Dec) : WorksOn id (fun _ => True) (changePosition now position delta) := by
  subst h
  have hkeep (liquidity : Dec) :
      WorksOn position.key.pool (fun _ => True)
        (if liquidity.isZero then Operation.erasePosition position.key
          else Operation.setPosition { position with liquidity := liquidity }) :=
    .ite (.erasePosition rfl) (.setPosition rfl)
  refine .bind (changeTick now _ _ _ _ _) fun _ _ => .bind (changeTick now _ _ _ _ _) fun _ _ =>
    .bind (.pool _) fun p hp => .bind (.liftMath _) fun active hactive => ?_
  cases active with
  | none => exact .bind (.liftMath _) fun liquidity _ => hkeep liquidity
  | some p' =>
    exact .bind (.setPool ((Pool.id_of_shiftActive hactive).trans hp)) fun _ _ =>
      .bind (.liftMath _) fun liquidity _ => hkeep liquidity

/-- A first price works on the pool that takes it. -/
theorem pricedPool {p : Pool} (h : p.id = id) (amount0 amount1 : Amount) :
    WorksOn id (fun _ => True) (pricedPool p amount0 amount1) :=
  .ite (.bind (.lift _) fun _ hopened =>
      .bind (.setPool ((Pool.id_of_openWith hopened).trans h)) fun _ _ => .pure trivial)
    (.pure trivial)

end WorksOn

variable (now : Timestamp) (c : Config)

/-- A change of a tick on its own works on the pool of the tick. -/
theorem changeTick_worksOn (id : PoolId) (t : Tick) (edge : Edge) (delta : Dec)
    (ids : OrderedSet IncentiveId) :
    (changeTick now id t edge delta ids).WorksOn id fun _ => True :=
  .changeTick now id t edge delta ids

/-- **A crossing** works on the pool whose tick is crossed. -/
theorem crossTick_worksOn (mode : InactiveMode) (id : PoolId) (t : Tick) :
    (crossTick now mode id t).WorksOn id fun _ => True :=
  .bind (.pool id) fun _ hp => .bind (.tickState id t) fun _ _ =>
    .bind (.liftMath _) fun after _ => .bind (.setTick id t after) fun _ _ =>
    .bind (.liftMath _) fun _ haccrued =>
    .bind (.setPool ((Pool.id_of_accrue haccrued).trans hp)) fun _ _ => .pure trivial

/-- A new incentive works on its pool. -/
theorem addIncentive_worksOn (id : PoolId) (incentive : IncentiveId) :
    (addIncentive id incentive).WorksOn id fun _ => True :=
  .bind (.pool id) fun _ hp => .ite (.pure trivial) (.setPool hp)

/-- **A deposit** works on its pool. -/
theorem deposit_worksOn (d : Deposit) : (deposit now c d).WorksOn d.pool fun _ => True := by
  refine .bind (.pool d.pool) fun found hfound => .bind (.lift _) fun _ _ =>
    .bind (.lift _) fun _ _ => .bind (.pricedPool hfound _ _) fun p _ =>
    .bind (.lift _) fun receipt _ => .bind (.findPosition d.key_pool) fun position hposition => ?_
  have hchange {target : Position} (htarget : target.key = d.key) :
      WorksOn d.pool (fun _ => True) (do
        changePosition now target receipt.liquidity
        return receipt) :=
    .bind (.changePosition (congrArg PositionKey.pool htarget) now _) fun _ _ => .pure trivial
  cases position with
  | none => exact hchange rfl
  | some existing => exact .bind (.lift _) fun _ _ => hchange (hposition existing rfl)

/-- **A withdrawal** works on its pool. -/
theorem withdraw_worksOn (w : Withdrawal) : (withdraw now c w).WorksOn w.pool fun _ => True := by
  refine .bind (.pool w.pool) fun p _ => .bind (.lift _) fun _ _ =>
    .bind (.findPosition w.key_pool) fun found hfound => ?_
  cases found with
  | none => exact .throw _
  | some position =>
    have hkey : position.key.pool = w.pool := congrArg PositionKey.pool (hfound position rfl)
    have hpaid (out0 out1 : Except MathError Amount) : WorksOn w.pool (fun _ => True) (do
        changePosition now position w.liquidity.neg
        return (← out0, ← out1)) :=
      .bind (.changePosition hkey now w.liquidity.neg) fun _ _ => .bind (.liftMath _) fun _ _ =>
        .bind (.liftMath _) fun _ _ => .pure trivial
    exact .bind (.lift _) fun _ _ => .guard <| .guard <| .bind (.liftMath _) fun amounts _ =>
      hpaid amounts.1.abs.truncate amounts.2.abs.truncate

end Operation

end RangeLedger
