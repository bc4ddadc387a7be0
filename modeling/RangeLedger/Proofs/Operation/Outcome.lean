import RangeLedger.Operation.Positions
import RangeLedger.Proofs.Failure
import RangeLedger.Store

/-!
# Outcomes of operations

For each operation this module says when it succeeds on a store, with which result, and what store
it then leaves. Each statement is an equivalence, so it is used in both directions: to take a
success apart, and to show that an operation succeeds.

An operation is taken apart at its sequencings: `run_bind_eq_ok_iff` splits a success into the
successes of the parts.

## Main results

* `changePosition_eq_ok_iff`: what a change of a position does to its two ticks, to the pool and to
  the position.
* `deposit_eq_ok_iff`, `withdraw_eq_ok_iff`: when a deposit or a withdrawal succeeds.
* `crossTick_eq_ok_iff`, `addIncentive_eq_ok_iff`: the same for the other two operations.
-/

namespace RangeLedger

variable {α β : Type}

/-! ### The store after a write -/

namespace Store

/-- The state of a tick; a tick that was never touched reads as zero. -/
def tickAt (s : Store) (id : PoolId) (t : Tick) : TickState :=
  ((s.ticksOf id).get? t).getD TickState.zero

/-- Keeps a pool, if one is given. -/
def keepPool (s : Store) : Option Pool → Store
  | some p => Storage.setPool s p
  | none => s

/-- Keeps a position, or forgets it when it holds nothing. -/
def keepPosition (s : Store) (p : Position) : Store :=
  if p.liquidity.isZero then Storage.erasePosition s p.key else Storage.setPosition s p

/-- The position that a request for a key and incentives is about: the one under the key, which has
to be committed to the incentives, or a new one. -/
def Target (s : Store) (key : PositionKey) (ids : OrderedSet IncentiveId) (p : Position) : Prop :=
  (s.positions.get? key = some p ∧ p.incentives = ids) ∨
    (s.positions.get? key = none ∧ p = Position.empty key ids)

/-- The position that a request is about has the key of the request. -/
theorem Target.key_eq {s : Store} {key : PositionKey} {ids : OrderedSet IncentiveId} {p : Position}
    (h : s.Target key ids p) : p.key = key := by
  obtain ⟨h, -⟩ | ⟨-, rfl⟩ := h
  · exact Table.key_of_get? h
  · rfl

/-- The position that a request is about has the incentives of the request. -/
theorem Target.incentives_eq {s : Store} {key : PositionKey} {ids : OrderedSet IncentiveId}
    {p : Position} (h : s.Target key ids p) : p.incentives = ids := by
  obtain ⟨-, h⟩ | ⟨-, rfl⟩ := h
  · exact h
  · rfl

end Store

namespace Operation

/-! ### Steps -/

section

variable {σ : Type} [Storage σ] {s s' : σ}

/-- A sequence of operations succeeds when both parts do. -/
theorem run_bind_eq_ok_iff {x : Operation α} {f : α → Operation β} {b : β} :
    (x >>= f).run s = (.ok b, s') ↔
      ∃ a s₁, x.run s = (.ok a, s₁) ∧ (f a).run s₁ = (.ok b, s') := by
  rw [run_bind]
  rcases x.run s with ⟨e | a, s₁⟩
  · simp
  · constructor
    · intro h
      exact ⟨a, s₁, rfl, h⟩
    · rintro ⟨_, _, h, hf⟩
      cases h
      exact hf

/-- Behind a success a sequence goes on. -/
theorem run_bind_of_ok {x : Operation α} {f : α → Operation β} {a : α} {s₁ : σ}
    (h : x.run s = (.ok a, s₁)) : (x >>= f).run s = (f a).run s₁ := by
  rw [run_bind, h]

/-- A sequence of operations is refused where its first part is, or else where its second is. -/
theorem run_bind_eq_error_iff {x : Operation α} {f : α → Operation β} {e : LedgerError} :
    (x >>= f).run s = (.error e, s') ↔
      x.run s = (.error e, s') ∨
        ∃ a s₁, x.run s = (.ok a, s₁) ∧ (f a).run s₁ = (.error e, s') := by
  rw [run_bind]
  rcases x.run s with ⟨e' | a, s₁⟩
  · simp
  · constructor
    · intro h
      exact .inr ⟨a, s₁, rfl, h⟩
    · rintro (h | ⟨_, _, h, hf⟩)
      · cases h
      · cases h
        exact hf

/-- An answer leaves the store. -/
theorem run_pure_eq_ok_iff {a b : α} :
    (pure a : Operation α).run s = (.ok b, s') ↔ a = b ∧ s = s' := by
  simp [run_pure]

/-- A refusal answers nothing. -/
theorem run_throw_ne_ok {e : LedgerError} {a : α} :
    (throw e : Operation α).run s ≠ (.ok a, s') := by
  simp [run_throw]

/-- What stands behind a check is reached when the check does not refuse. -/
theorem run_guard_eq_ok_iff {b : Prop} [Decidable b] {e : LedgerError} {f : β → Operation α}
    {x : Operation α} {a : α} :
    (if b then (throw e : Operation β) >>= f else x).run s = (.ok a, s') ↔
      ¬b ∧ x.run s = (.ok a, s') := by
  split
  next hb => simp [run_throw, hb]
  next hb => simp [hb]

/-- A check leaves the store. -/
theorem run_lift_eq_ok_iff {x : Except LedgerError α} {a : α} :
    (liftM x : Operation α).run s = (.ok a, s') ↔ x = .ok a ∧ s = s' := by
  change (x, s) = _ ↔ _
  simp

/-- A computation leaves the store. -/
theorem run_liftMath_eq_ok_iff {x : Except MathError α} {a : α} :
    (liftM x : Operation α).run s = (.ok a, s') ↔ x = .ok a ∧ s = s' := by
  change (x.mapError LedgerError.math, s) = _ ↔ _
  rw [← mapError_eq_ok_iff (g := LedgerError.math)]
  simp

/-- Any storage is asked for a pool that it has. -/
theorem storage_pool_eq_ok_iff {id : PoolId} {p : Pool} :
    (pool id).run s = (.ok p, s') ↔ Storage.pool? s id = some p ∧ s = s' := by
  change ((match Storage.pool? s id with
    | some p => pure p
    | none => throw (.poolNotFound id) : Operation Pool)).run s = _ ↔ _
  cases Storage.pool? s id with
  | none => simp [run_throw]
  | some q => simp [run_pure]

/-- Any storage is asked for a tick of a pool that it has. -/
theorem storage_tickState_eq_ok_iff {id : PoolId} {t : Tick} {state : TickState} :
    (tickState id t).run s = (.ok state, s') ↔ ∃ p, Storage.pool? s id = some p ∧
      state = (Storage.tick? s id t).getD TickState.zero ∧ s = s' := by
  have hfind (found : Option TickState) (s₁ : σ) :
      (findTick id t).run s = (.ok found, s₁) ↔ Storage.tick? s id t = found ∧ s = s₁ := by
    change (Except.ok (Storage.tick? s id t), s) = _ ↔ _
    simp
  rw [tickState]
  simp only [run_bind_eq_ok_iff, storage_pool_eq_ok_iff, run_pure_eq_ok_iff]
  constructor
  · rintro ⟨p, _, ⟨hp, rfl⟩, _, _, hfound, rfl, rfl⟩
    obtain ⟨rfl, rfl⟩ := (hfind _ _).1 hfound
    exact ⟨p, hp, rfl, rfl⟩
  · rintro ⟨p, hp, rfl, rfl⟩
    exact ⟨p, s, ⟨hp, rfl⟩, _, s, (hfind _ _).2 ⟨rfl, rfl⟩, rfl, rfl⟩

end

variable {s s' : Store}

/-- Reading a pool answers the one that is kept. -/
theorem run_pool_eq_ok_iff {id : PoolId} {p : Pool} :
    (pool id).run s = (.ok p, s') ↔ s.pools.get? id = some p ∧ s = s' :=
  storage_pool_eq_ok_iff

/-- Reading a pool fails only if there is none with that number. -/
theorem run_pool_eq_error_iff {id : PoolId} {e : LedgerError} :
    (pool id).run s = (.error e, s') ↔
      s.pools.get? id = none ∧ e = .poolNotFound id ∧ s = s' := by
  change ((match s.pools.get? id with
    | some p => pure p
    | none => throw (.poolNotFound id) : Operation Pool)).run s = _ ↔ _
  cases s.pools.get? id with
  | none => simp [run_throw, eq_comm]
  | some q => simp [run_pure]

/-- Writing a pool always succeeds. -/
theorem run_setPool_eq_ok_iff {p : Pool} {u : Unit} :
    (setPool p).run s = (.ok u, s') ↔ Storage.setPool s p = s' := by
  change (Except.ok (), Storage.setPool s p) = _ ↔ _
  simp

/-- Writing a tick always succeeds. -/
theorem run_setTick_eq_ok_iff {id : PoolId} {t : Tick} {state : TickState} {u : Unit} :
    (setTick id t state).run s = (.ok u, s') ↔ Storage.setTick s id t state = s' := by
  change (Except.ok (), Storage.setTick s id t state) = _ ↔ _
  simp

/-- Looking for a tick answers what is kept, if anything. -/
theorem run_findTick_eq_ok_iff {id : PoolId} {t : Tick} {found : Option TickState} :
    (findTick id t).run s = (.ok found, s') ↔ (s.ticksOf id).get? t = found ∧ s = s' := by
  change (Except.ok ((s.ticksOf id).get? t), s) = _ ↔ _
  simp

/-- Listing ticks answers all that are kept for a pool. -/
theorem run_listTicks_eq_ok_iff {id : PoolId} {ticks : Map Tick TickState} :
    (listTicks id).run s = (.ok ticks, s') ↔ s.ticksOf id = ticks ∧ s = s' := by
  change (Except.ok (s.ticksOf id), s) = _ ↔ _
  simp

/-- Looking for a position answers what is stored, if anything. -/
theorem run_findPosition_eq_ok_iff {key : PositionKey} {found : Option Position} :
    (findPosition key).run s = (.ok found, s') ↔ s.positions.get? key = found ∧ s = s' := by
  change (Except.ok (s.positions.get? key), s) = _ ↔ _
  simp

/-! ### Ticks -/

/-- **A change of a tick** writes the changed state of the tick, in a pool that is there. -/
theorem changeTick_eq_ok_iff {now : Timestamp} {id : PoolId} {t : Tick} {edge : Edge} {delta : Dec}
    {ids : OrderedSet IncentiveId} {u : Unit} :
    (changeTick now id t edge delta ids).run s = (.ok u, s') ↔
      ∃ p after, s.pools.get? id = some p ∧
        (s.tickAt id t).change p now edge delta ids = .ok after ∧
        s' = Storage.setTick s id t after := by
  rw [changeTick]
  simp only [run_bind_eq_ok_iff, run_pool_eq_ok_iff, run_findTick_eq_ok_iff, run_lift_eq_ok_iff,
    run_setTick_eq_ok_iff]
  constructor
  · rintro ⟨p, _, ⟨hp, rfl⟩, _, _, ⟨rfl, rfl⟩, after, _, ⟨hafter, rfl⟩, rfl⟩
    exact ⟨p, after, hp, hafter, rfl⟩
  · rintro ⟨p, after, hp, hafter, rfl⟩
    exact ⟨p, s, ⟨hp, rfl⟩, _, s, ⟨rfl, rfl⟩, after, s, ⟨hafter, rfl⟩, rfl⟩

/-- The state of a tick is answered for a pool that is there. -/
theorem tickState_eq_ok_iff {id : PoolId} {t : Tick} {state : TickState} :
    (tickState id t).run s = (.ok state, s') ↔
      ∃ p, s.pools.get? id = some p ∧ state = s.tickAt id t ∧ s = s' :=
  storage_tickState_eq_ok_iff

/-- The ticks of a pool are answered for a pool that is there. -/
theorem initializedTicks_eq_ok_iff {id : PoolId} {ticks : Map Tick TickState} :
    (initializedTicks id).run s = (.ok ticks, s') ↔
      ∃ p, s.pools.get? id = some p ∧ ticks = s.ticksOf id ∧ s = s' := by
  rw [initializedTicks]
  simp only [run_bind_eq_ok_iff, run_pool_eq_ok_iff, run_listTicks_eq_ok_iff]
  constructor
  · rintro ⟨p, _, ⟨hp, rfl⟩, rfl, rfl⟩
    exact ⟨p, hp, rfl, rfl⟩
  · rintro ⟨p, hp, rfl, rfl⟩
    exact ⟨p, s, ⟨hp, rfl⟩, rfl, rfl⟩

/-- **A crossing** refreshes the tick, adds its records to the accumulators of the pool, and answers
the net liquidity that the tick had. -/
theorem crossTick_eq_ok_iff {now : Timestamp} {mode : InactiveMode} {id : PoolId} {t : Tick}
    {net : Dec} :
    (crossTick now mode id t).run s = (.ok net, s') ↔
      ∃ p after p', s.pools.get? id = some p ∧
        (s.tickAt id t).cross mode (now.since p.created) = .ok after ∧
        p.accrue after.incentives = .ok p' ∧ net = after.stake.net ∧
        s' = Storage.setPool (Storage.setTick s id t after) p' := by
  rw [crossTick]
  simp only [run_bind_eq_ok_iff, run_pool_eq_ok_iff, tickState_eq_ok_iff, run_liftMath_eq_ok_iff,
    run_setTick_eq_ok_iff, run_setPool_eq_ok_iff, run_pure_eq_ok_iff]
  constructor
  · rintro ⟨p, _, ⟨hp, rfl⟩, _, _, ⟨_, -, rfl, rfl⟩, after, _, ⟨hafter, rfl⟩, _, _, rfl, p', _,
      ⟨hp', rfl⟩, _, _, rfl, rfl, rfl⟩
    exact ⟨p, after, p', hp, hafter, hp', rfl, rfl⟩
  · rintro ⟨p, after, p', hp, hafter, hp', rfl, rfl⟩
    exact ⟨p, s, ⟨hp, rfl⟩, _, s, ⟨p, hp, rfl, rfl⟩, after, s, ⟨hafter, rfl⟩, (), _, rfl, p', _,
      ⟨hp', rfl⟩, (), _, rfl, rfl, rfl⟩

/-- **A new incentive** is started on a pool that is there, unless it runs already. -/
theorem addIncentive_eq_ok_iff {id : PoolId} {incentive : IncentiveId} {u : Unit} :
    (addIncentive id incentive).run s = (.ok u, s') ↔
      ∃ p, s.pools.get? id = some p ∧
        s' = if p.incentives.contains incentive then s
          else Storage.setPool s (p.withIncentives [incentive]) := by
  rw [addIncentive]
  simp only [run_bind_eq_ok_iff, run_pool_eq_ok_iff]
  constructor
  · rintro ⟨p, _, ⟨hp, rfl⟩, h⟩
    refine ⟨p, hp, ?_⟩
    split at h
    next hc =>
      rw [if_pos hc]
      exact (run_pure_eq_ok_iff.1 h).2.symm
    next hc =>
      rw [if_neg hc]
      exact (run_setPool_eq_ok_iff.1 h).symm
  · rintro ⟨p, hp, rfl⟩
    refine ⟨p, s, ⟨hp, rfl⟩, ?_⟩
    split <;> rfl

/-! ### Positions -/

/-- The last step of a change: the position is kept, or forgotten when nothing is left. -/
theorem run_keepPosition_eq_ok_iff (position : Position) {key : PositionKey} {u : Unit}
    (hkey : position.key = key) :
    (if position.liquidity.isZero then erasePosition key
      else setPosition position : Operation Unit).run s = (.ok u, s') ↔
      s.keepPosition position = s' := by
  subst hkey
  rw [Store.keepPosition]
  split
  · change (Except.ok (), Storage.erasePosition s position.key) = _ ↔ _
    simp
  · change (Except.ok (), Storage.setPosition s position) = _ ↔ _
    simp

/-- **A change of a position** succeeds when its lower tick, its upper tick, the active liquidity
and its own liquidity can be changed, in this order. -/
theorem changePosition_eq_ok_iff {now : Timestamp} {position : Position} {delta : Dec} {u : Unit} :
    (changePosition now position delta).run s = (.ok u, s') ↔
      ∃ p atLower atUpper active liquidity,
        s.pools.get? position.key.pool = some p ∧
        (s.tickAt position.key.pool position.key.lower).change p now .lower delta
          position.incentives = .ok atLower ∧
        ((Storage.setTick s position.key.pool position.key.lower atLower).tickAt position.key.pool
          position.key.upper).change p now .upper delta position.incentives = .ok atUpper ∧
        p.shiftActive position.key.lower position.key.upper delta = .ok active ∧
        position.liquidity.add delta = .ok liquidity ∧
        s' = ((Storage.setTick (Storage.setTick s position.key.pool position.key.lower atLower)
          position.key.pool position.key.upper atUpper).keepPool active).keepPosition
          { position with liquidity := liquidity } := by
  rw [changePosition]
  simp only [run_bind_eq_ok_iff, run_pool_eq_ok_iff, changeTick_eq_ok_iff, run_liftMath_eq_ok_iff]
  constructor
  · rintro ⟨_, _, ⟨p, atLower, hp, hlower, rfl⟩, _, _, ⟨p₁, atUpper, hp₁, hupper, rfl⟩, p₂, _,
      ⟨hp₂, rfl⟩, active, _, ⟨hactive, rfl⟩, h⟩
    obtain rfl : p₁ = p := Option.some.inj (hp₁.symm.trans hp)
    obtain rfl : p₂ = p₁ := Option.some.inj (hp₂.symm.trans hp)
    cases active with
    | none =>
      simp only [run_bind_eq_ok_iff, run_liftMath_eq_ok_iff] at h
      obtain ⟨liquidity, _, ⟨hliquidity, rfl⟩, h⟩ := h
      exact ⟨p₂, atLower, atUpper, none, liquidity, hp, hlower, hupper, hactive, hliquidity,
        ((run_keepPosition_eq_ok_iff { position with liquidity := liquidity } rfl).1 h).symm⟩
    | some q =>
      simp only [run_bind_eq_ok_iff, run_liftMath_eq_ok_iff, run_setPool_eq_ok_iff] at h
      obtain ⟨_, _, rfl, liquidity, _, ⟨hliquidity, rfl⟩, h⟩ := h
      exact ⟨p₂, atLower, atUpper, some q, liquidity, hp, hlower, hupper, hactive, hliquidity,
        ((run_keepPosition_eq_ok_iff { position with liquidity := liquidity } rfl).1 h).symm⟩
  · rintro ⟨p, atLower, atUpper, active, liquidity, hp, hlower, hupper, hactive, hliquidity, rfl⟩
    refine ⟨(), _, ⟨p, atLower, hp, hlower, rfl⟩, (), _, ⟨p, atUpper, hp, hupper, rfl⟩, p, _,
      ⟨hp, rfl⟩, active, _, ⟨hactive, rfl⟩, ?_⟩
    have hkeep (s₁ : Store) := (run_keepPosition_eq_ok_iff (s := s₁) (u := ())
      { position with liquidity := liquidity } rfl).2 rfl
    cases active with
    | none =>
      simp only [run_bind_eq_ok_iff, run_liftMath_eq_ok_iff]
      exact ⟨liquidity, _, ⟨hliquidity, rfl⟩, hkeep _⟩
    | some q =>
      simp only [run_bind_eq_ok_iff, run_liftMath_eq_ok_iff, run_setPool_eq_ok_iff]
      exact ⟨(), _, rfl, liquidity, _, ⟨hliquidity, rfl⟩, hkeep _⟩

/-- The pool that a deposit goes to, and the store in which it is: without a price, the pool takes
that of the offered amounts. -/
def PricedAs (s : Store) (found : Pool) (amount0 amount1 : Amount) (p : Pool) (s' : Store) : Prop :=
  (found.isUnpriced = true ∧ found.openWith amount0 amount1 = .ok p ∧ s' = Storage.setPool s p) ∨
    (found.isUnpriced = false ∧ p = found ∧ s' = s)

/-- A deposit finds its pool with a price, or opens it. -/
theorem pricedPool_eq_ok_iff {found p : Pool} {amount0 amount1 : Amount} :
    (pricedPool found amount0 amount1).run s = (.ok p, s') ↔
      PricedAs s found amount0 amount1 p s' := by
  rw [pricedPool, PricedAs]
  cases found.isUnpriced with
  | false =>
    simp only [Bool.false_eq_true, if_false, run_pure_eq_ok_iff, false_and, false_or, true_and]
    exact and_congr eq_comm eq_comm
  | true =>
    simp only [if_true, run_bind_eq_ok_iff, run_lift_eq_ok_iff, run_setPool_eq_ok_iff,
      run_pure_eq_ok_iff, true_and, Bool.true_eq_false, false_and, or_false]
    constructor
    · rintro ⟨_, _, ⟨hopen, rfl⟩, _, _, rfl, rfl, rfl⟩
      exact ⟨hopen, rfl⟩
    · rintro ⟨hopen, rfl⟩
      exact ⟨p, s, ⟨hopen, rfl⟩, (), _, rfl, rfl, rfl⟩

/-- A request has to name the incentives to which the position is committed. -/
theorem checkCommitment_eq_ok_iff {p : Position} {ids : OrderedSet IncentiveId} {u : Unit} :
    p.checkCommitment ids = .ok u ↔ p.incentives = ids := by
  simp [Position.checkCommitment, Position.isCommittedTo]

/-- A guard in a computation that may fail. -/
theorem guard_eq_ok_iff {β ε : Type} {b : Prop} [Decidable b] {e : ε} {f : β → Except ε α}
    {x : Except ε α} {a : α} :
    (if b then (.error e : Except ε β) >>= f else x) = .ok a ↔ ¬b ∧ x = .ok a := by
  split
  next hb => exact ⟨nofun, fun h => absurd hb h.1⟩
  next hb => exact ⟨fun h => ⟨hb, h⟩, fun h => h.2⟩

/-- **A deposit comes to a receipt** when the offered amounts back some liquidity over its range,
and the truncated amounts that this liquidity takes are not below the minima. -/
theorem quote_eq_ok_iff {p : Pool} {d : Deposit} {r : Receipt} :
    quote p d = .ok r ↔
      ∃ sqrtLower sqrtUpper amounts, d.lower.sqrtPrice = .ok sqrtLower ∧
        d.upper.sqrtPrice = .ok sqrtUpper ∧
        Liquidity.ofAmounts p.sqrtPrice sqrtLower sqrtUpper d.amount0 d.amount1 =
          .ok r.liquidity ∧
        0 < r.liquidity.raw ∧
        p.amounts d.lower d.upper sqrtLower sqrtUpper r.liquidity = .ok amounts ∧
        amounts.1.truncate = .ok r.amount0 ∧ amounts.2.truncate = .ok r.amount1 ∧
        d.min0 ≤ r.amount0 ∧ d.min1 ≤ r.amount1 := by
  rw [quote]
  simp only [bind_eq_ok_iff, mapError_eq_ok_iff, guard_eq_ok_iff]
  constructor
  · rintro ⟨sqrtLower, hlower, sqrtUpper, hupper, liquidity, hliquidity, hpositive, amounts,
      hamounts, amount0, h0, amount1, h1, hmin0, hmin1, hr⟩
    cases hr
    rw [Bool.not_eq_true', Bool.not_eq_false] at hpositive
    exact ⟨sqrtLower, sqrtUpper, amounts, hlower, hupper, hliquidity, of_decide_eq_true hpositive,
      hamounts, h0, h1, Int.not_lt.1 hmin0, Int.not_lt.1 hmin1⟩
  · rintro ⟨sqrtLower, sqrtUpper, amounts, hlower, hupper, hliquidity, hpositive, hamounts, h0, h1,
      hmin0, hmin1⟩
    refine ⟨sqrtLower, hlower, sqrtUpper, hupper, r.liquidity, hliquidity, ?_, amounts, hamounts,
      r.amount0, h0, r.amount1, h1, Int.not_lt.2 hmin0, Int.not_lt.2 hmin1, rfl⟩
    rw [Bool.not_eq_true', Bool.not_eq_false]
    exact decide_eq_true hpositive

/-- What a withdrawal releases is the amount of the liquidity taken away, between the roots of its
range. -/
theorem release_eq_ok_iff {p : Pool} {w : Withdrawal} {amounts : Dec × Dec} :
    release p w = .ok amounts ↔
      ∃ sqrtLower sqrtUpper, w.lower.sqrtPrice = .ok sqrtLower ∧
        w.upper.sqrtPrice = .ok sqrtUpper ∧
        p.amounts w.lower w.upper sqrtLower sqrtUpper w.liquidity.neg = .ok amounts := by
  rw [release]
  simp only [bind_eq_ok_iff]
  constructor
  · rintro ⟨sqrtLower, hlower, sqrtUpper, hupper, hamounts⟩
    exact ⟨sqrtLower, sqrtUpper, hlower, hupper, hamounts⟩
  · rintro ⟨sqrtLower, sqrtUpper, hlower, hupper, hamounts⟩
    exact ⟨sqrtLower, hlower, sqrtUpper, hupper, hamounts⟩

/-- **A deposit** succeeds when the pool admits its range and incentives, has or takes a price, the
offered amounts come to a receipt, and the position under its key can be changed. -/
theorem deposit_eq_ok_iff {now : Timestamp} {c : Config} {d : Deposit} {r : Receipt} :
    (deposit now c d).run s = (.ok r, s') ↔
      ∃ found p s₁ position, s.pools.get? d.pool = some found ∧
        found.checkRange c d.lower d.upper = .ok () ∧
        found.checkIncentives d.incentives = .ok () ∧
        PricedAs s found d.amount0 d.amount1 p s₁ ∧ quote p d = .ok r ∧
        s₁.Target d.key d.incentives position ∧
        (changePosition now position r.liquidity).run s₁ = (.ok (), s') := by
  rw [deposit]
  simp only [run_bind_eq_ok_iff, run_pool_eq_ok_iff, run_lift_eq_ok_iff, pricedPool_eq_ok_iff,
    run_findPosition_eq_ok_iff]
  constructor
  · rintro ⟨found, _, ⟨hfound, rfl⟩, _, _, ⟨hrange, rfl⟩, _, _, ⟨hids, rfl⟩, p, s₁, hpriced, r', _,
      ⟨hquote, rfl⟩, _, _, ⟨rfl, rfl⟩, h⟩
    refine ⟨found, p, s₁, ?_⟩
    cases hposition : s₁.positions.get? d.key with
    | none =>
      simp only [hposition, run_bind_eq_ok_iff, run_pure_eq_ok_iff] at h
      obtain ⟨_, _, ⟨rfl, rfl⟩, _, _, hchange, rfl, rfl⟩ := h
      exact ⟨_, hfound, hrange, hids, hpriced, hquote, .inr ⟨hposition, rfl⟩, hchange⟩
    | some position =>
      simp only [hposition, run_bind_eq_ok_iff, run_pure_eq_ok_iff, run_lift_eq_ok_iff,
        checkCommitment_eq_ok_iff] at h
      obtain ⟨_, _, ⟨hcommitted, rfl⟩, _, _, ⟨rfl, rfl⟩, _, _, hchange, rfl, rfl⟩ := h
      exact ⟨_, hfound, hrange, hids, hpriced, hquote, .inl ⟨hposition, hcommitted⟩, hchange⟩
  · rintro ⟨found, p, s₁, position, hfound, hrange, hids, hpriced, hquote, htarget, hchange⟩
    refine ⟨found, s, ⟨hfound, rfl⟩, (), s, ⟨hrange, rfl⟩, (), s, ⟨hids, rfl⟩, p, s₁, hpriced, r,
      s₁, ⟨hquote, rfl⟩, _, s₁, ⟨rfl, rfl⟩, ?_⟩
    obtain ⟨hposition, hcommitted⟩ | ⟨hposition, rfl⟩ := htarget
    · simp only [hposition, run_bind_eq_ok_iff, run_pure_eq_ok_iff, run_lift_eq_ok_iff,
        checkCommitment_eq_ok_iff]
      exact ⟨(), s₁, ⟨hcommitted, rfl⟩, position, s₁, ⟨rfl, rfl⟩, (), s', hchange, trivial, rfl⟩
    · simp only [hposition, run_bind_eq_ok_iff, run_pure_eq_ok_iff]
      exact ⟨_, s₁, ⟨rfl, rfl⟩, (), s', hchange, trivial, rfl⟩

/-- **A withdrawal** succeeds when the pool admits its range, the position under its key is
committed to its incentives and holds the liquidity asked for, and the position can be changed. -/
theorem withdraw_eq_ok_iff {now : Timestamp} {c : Config} {w : Withdrawal} {out : Amount × Amount} :
    (withdraw now c w).run s = (.ok out, s') ↔
      ∃ p position amounts, s.pools.get? w.pool = some p ∧
        p.checkRange c w.lower w.upper = .ok () ∧
        s.positions.get? w.key = some position ∧ position.incentives = w.incentives ∧
        0 < w.liquidity.raw ∧ w.liquidity.raw ≤ position.liquidity.raw ∧
        release p w = .ok amounts ∧
        (changePosition now position w.liquidity.neg).run s = (.ok (), s') ∧
        amounts.1.abs.truncate = .ok out.1 ∧ amounts.2.abs.truncate = .ok out.2 := by
  rw [withdraw]
  simp only [run_bind_eq_ok_iff, run_pool_eq_ok_iff, run_lift_eq_ok_iff,
    run_findPosition_eq_ok_iff]
  constructor
  · rintro ⟨p, _, ⟨hp, rfl⟩, _, _, ⟨hrange, rfl⟩, _, _, ⟨rfl, rfl⟩, h⟩
    cases hposition : s.positions.get? w.key with
    | none => simp only [hposition, run_throw_ne_ok] at h
    | some position =>
      simp only [hposition, run_bind_eq_ok_iff, run_lift_eq_ok_iff, checkCommitment_eq_ok_iff,
        run_guard_eq_ok_iff, run_liftMath_eq_ok_iff, run_pure_eq_ok_iff] at h
      obtain ⟨_, _, ⟨hcommitted, rfl⟩, hpositive, hheld, amounts, _, ⟨hrelease, rfl⟩, _, _, hchange,
        out0, _, ⟨h0, rfl⟩, out1, _, ⟨h1, rfl⟩, rfl, rfl⟩ := h
      simp only [Dec.isPositive, Bool.not_eq_true', Bool.not_eq_false, decide_eq_true_eq]
        at hpositive
      exact ⟨p, position, amounts, hp, hrange, rfl, hcommitted, hpositive, Int.not_lt.1 hheld,
        hrelease, hchange, h0, h1⟩
  · rintro ⟨p, position, amounts, hp, hrange, hposition, hcommitted, hpositive, hheld, hrelease,
      hchange, h0, h1⟩
    refine ⟨p, s, ⟨hp, rfl⟩, (), s, ⟨hrange, rfl⟩, _, s, ⟨rfl, rfl⟩, ?_⟩
    simp only [hposition, run_bind_eq_ok_iff, run_lift_eq_ok_iff, checkCommitment_eq_ok_iff,
      run_guard_eq_ok_iff, run_liftMath_eq_ok_iff, run_pure_eq_ok_iff]
    exact ⟨(), s, ⟨hcommitted, rfl⟩, by simp [Dec.isPositive, hpositive], Int.not_lt.2 hheld,
      amounts, s, ⟨hrelease, rfl⟩, (), s', hchange, out.1, s', ⟨h0, rfl⟩, out.2, s', ⟨h1, rfl⟩,
      rfl, rfl⟩

end Operation

end RangeLedger
