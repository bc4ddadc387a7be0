import RangeLedger.Proofs.Operation.Effect
import RangeLedger.Proofs.Tick.Outside

/-!
# Operations and incentives

What is kept for incentives, the records at ticks and the accumulators of pools, is written in four
ways only. A change of a position changes its two boundary ticks; a crossing refreshes a tick and
adds to accumulators; a new incentive starts an accumulator. Everything else that an operation
writes leaves it alone (`Store.KeepsIncentives`), the price and the active liquidity among it.

What is asked about an incentive inside a range is what it has collected below the upper boundary
less what it has collected below the lower one (`collectedBelow`). In terms of what is stored it
depends on the side of the range on which the current tick lies. From within, it is the accumulator
less both outside values. From without, the accumulator cancels, and it is the outside value at the
nearer boundary less that at the farther one.

## Main results

* `Operation.deposit_accounts`, `Operation.withdraw_accounts`: a change of a position by its parts.
* `Operation.crossTick_accounts`, `Operation.addIncentive_accounts`: the other two.
* `raw_valueInside`: a value inside a range as the difference of two values below its boundaries.
* `raw_of_valueInside`: the three sides.
* `Operation.storage_secondsInside_eq_ok_iff`: when a value inside a range is answered.
-/

namespace RangeLedger

namespace Store

/-- Nothing that is kept for incentives changes, and neither does a tick. -/
structure KeepsIncentives (s s' : Store) : Prop where
  ticks : ∀ id, s'.ticksOf id = s.ticksOf id
  pools : ∀ id, (s'.pools.get? id).map Pool.incentives = (s.pools.get? id).map Pool.incentives

variable {s s' s'' : Store}

/-- Where nothing changes nothing of incentives does. -/
theorem KeepsIncentives.refl (s : Store) : s.KeepsIncentives s := ⟨fun _ => rfl, fun _ => rfl⟩

/-- What is kept in one direction is kept in the other. -/
theorem KeepsIncentives.symm (h : s.KeepsIncentives s') : s'.KeepsIncentives s :=
  ⟨fun id => (h.ticks id).symm, fun id => (h.pools id).symm⟩

/-- What is kept by two changes is kept by both together. -/
theorem KeepsIncentives.trans (h : s.KeepsIncentives s') (h' : s'.KeepsIncentives s'') :
    s.KeepsIncentives s'' :=
  ⟨fun id => (h'.ticks id).trans (h.ticks id), fun id => (h'.pools id).trans (h.pools id)⟩

/-- A pool has the accumulators that it had before. -/
theorem KeepsIncentives.pool (h : s.KeepsIncentives s') {id : PoolId} {p' : Pool}
    (hp' : s'.pools.get? id = some p') :
    ∃ p, s.pools.get? id = some p ∧ p'.incentives = p.incentives := by
  have hpools := h.pools id
  rw [hp', Option.map_some] at hpools
  obtain ⟨p, hp, heq⟩ := Option.map_eq_some_iff.1 hpools.symm
  exact ⟨p, hp, heq.symm⟩

/-- A pool that is kept with the incentives that it had. -/
theorem keepsIncentives_setPool {p p' : Pool} (hp : s.pools.get? p'.id = some p)
    (h : p'.incentives = p.incentives) : s.KeepsIncentives (Storage.setPool s p') := by
  refine ⟨fun _ => rfl, fun id => ?_⟩
  rw [get?_setPool]
  by_cases hid : p'.id = id
  · rw [if_pos hid, ← hid, hp, Option.map_some, Option.map_some, h]
  · rw [if_neg hid]

/-- A pool whose active liquidity was shifted keeps its accumulators. -/
theorem keepsIncentives_keepPool {p : Pool} {lower upper : Tick} {delta : Dec} {outcome : Option Pool}
    (hp : s.pools.get? p.id = some p) (h : p.shiftActive lower upper delta = .ok outcome) :
    s.KeepsIncentives (s.keepPool outcome) := by
  cases outcome with
  | none => exact .refl s
  | some p' =>
    rw [Pool.shiftActive] at h
    split at h
    · obtain ⟨active, -, h⟩ := bind_eq_ok_iff.1 h
      cases h
      exact keepsIncentives_setPool hp rfl
    · cases h

/-- A position that is stored is nothing to incentives. -/
theorem keepsIncentives_keepPosition (s : Store) (p : Position) :
    s.KeepsIncentives (s.keepPosition p) :=
  ⟨fun id => ticksOf_keepPosition p id, fun id => by rw [pools_keepPosition]⟩

end Store

namespace Operation

variable {s s' : Store} {now : Timestamp} {c : Config}

/-- A first price is nothing to incentives. -/
theorem PricedAs.keepsIncentives {found p : Pool} {amount0 amount1 : Amount} {id : PoolId}
    (h : PricedAs s found amount0 amount1 p s') (hfound : s.pools.get? id = some found) :
    s.KeepsIncentives s' := by
  obtain ⟨-, hopen, rfl⟩ | ⟨-, -, rfl⟩ := h
  · obtain ⟨root, tick, rfl, -⟩ := Pool.openWith_eq_ok hopen
    obtain rfl : found.id = id := Table.key_of_get? hfound
    exact Store.keepsIncentives_setPool (p := found) hfound rfl
  · exact .refl _

/-- A change of a position changes its two boundaries, and then nothing for incentives. -/
theorem changePosition_accounts {position : Position} {delta : Dec}
    (h : (changePosition now position delta).run s = (.ok (), s')) :
    ∃ s₁ s₂, (changeTick now position.key.pool position.key.lower .lower delta
        position.incentives).run s = (.ok (), s₁) ∧
      (changeTick now position.key.pool position.key.upper .upper delta position.incentives).run
        s₁ = (.ok (), s₂) ∧ s₂.KeepsIncentives s' := by
  obtain ⟨p, atLower, atUpper, active, liquidity, hp, hlower, hupper, hactive, -, rfl⟩ :=
    changePosition_eq_ok_iff.1 h
  refine ⟨_, _, changeTick_eq_ok_iff.2 ⟨p, atLower, hp, hlower, rfl⟩,
    changeTick_eq_ok_iff.2 ⟨p, atUpper, hp, hupper, rfl⟩,
    (Store.keepsIncentives_keepPool ?_ hactive).trans (Store.keepsIncentives_keepPosition _ _)⟩
  obtain hid : p.id = position.key.pool := Table.key_of_get? hp
  rw [Store.pools_setTick, Store.pools_setTick, hid, hp]

/-- **A deposit** changes two boundaries, between writes that leave incentives alone. -/
theorem deposit_accounts {d : Deposit} {r : Receipt} (h : (deposit now c d).run s = (.ok r, s')) :
    ∃ s₁ s₂ s₃, s.KeepsIncentives s₁ ∧
      (changeTick now d.pool d.lower .lower r.liquidity d.incentives).run s₁ = (.ok (), s₂) ∧
      (changeTick now d.pool d.upper .upper r.liquidity d.incentives).run s₂ = (.ok (), s₃) ∧
      s₃.KeepsIncentives s' := by
  obtain ⟨found, p, s₁, position, hfound, -, -, hpriced, -, htarget, hchange⟩ :=
    deposit_eq_ok_iff.1 h
  obtain ⟨s₂, s₃, hlower, hupper, hrest⟩ := changePosition_accounts hchange
  rw [htarget.key_eq, htarget.incentives_eq] at hlower hupper
  exact ⟨s₁, s₂, s₃, hpriced.keepsIncentives hfound, hlower, hupper, hrest⟩

/-- **A withdrawal** changes two boundaries, and then nothing for incentives. -/
theorem withdraw_accounts {w : Withdrawal} {out : Amount × Amount}
    (h : (withdraw now c w).run s = (.ok out, s')) :
    ∃ s₁ s₂, (changeTick now w.pool w.lower .lower w.liquidity.neg w.incentives).run s =
        (.ok (), s₁) ∧
      (changeTick now w.pool w.upper .upper w.liquidity.neg w.incentives).run s₁ = (.ok (), s₂) ∧
      s₂.KeepsIncentives s' := by
  obtain ⟨p, position, amounts, -, -, hposition, hcommitted, -, -, -, hchange, -, -⟩ :=
    withdraw_eq_ok_iff.1 h
  have hkey : position.key = w.key := Table.key_of_get? hposition
  obtain ⟨s₁, s₂, hlower, hupper, hrest⟩ := changePosition_accounts hchange
  rw [hkey, hcommitted] at hlower hupper
  exact ⟨s₁, s₂, hlower, hupper, hrest⟩

/-- **A crossing** refreshes one tick and adds to the accumulators of its pool. -/
theorem crossTick_accounts {mode : InactiveMode} {id : PoolId} {t : Tick} {net : Dec}
    (h : (crossTick now mode id t).run s = (.ok net, s')) :
    ∃ p after p', s.pools.get? id = some p ∧
      (s.tickAt id t).cross mode (now.since p.created) = .ok after ∧
      p.accrue after.incentives = .ok p' ∧
      (∀ id', s'.ticksOf id' = (Storage.setTick s id t after).ticksOf id') ∧
      ∀ id', s'.pools.get? id' = if id = id' then some p' else s.pools.get? id' := by
  obtain ⟨p, after, p', hp, hafter, hp', -, rfl⟩ := crossTick_eq_ok_iff.1 h
  refine ⟨p, after, p', hp, hafter, hp', fun _ => rfl, fun id' => ?_⟩
  have hid : p.id = id := Table.key_of_get? hp
  have hid' : p'.id = id := by
    rw [Pool.accrue_eq hp']
    exact hid
  rw [Store.get?_setPool, hid', Store.pools_setTick]

/-- **A new incentive** starts at zero on its pool, unless it runs there already. -/
theorem addIncentive_accounts {id : PoolId} {incentive : IncentiveId}
    (h : (addIncentive id incentive).run s = (.ok (), s')) :
    (∀ id', s'.ticksOf id' = s.ticksOf id') ∧ ∃ p p', s.pools.get? id = some p ∧
      (∀ incentive', p'.incentives.get? incentive' =
        (p.incentives.get? incentive').or
          (if incentive = incentive' then some PoolIncentive.zero else none)) ∧
      ∀ id', s'.pools.get? id' = if id = id' then some p' else s.pools.get? id' := by
  obtain ⟨p, hp, rfl⟩ := addIncentive_eq_ok_iff.1 h
  have hid : p.id = id := Table.key_of_get? hp
  split
  next hruns =>
    refine ⟨fun _ => rfl, p, p, hp, fun incentive' => ?_, fun id' => ?_⟩
    · split
      next heq =>
        obtain ⟨accumulator, hacc⟩ := Option.isSome_iff_exists.1 hruns
        rw [← heq, hacc, Option.some_or]
      next => rw [Option.or_none]
    · split
      next heq => rw [← heq, hp]
      next => rfl
  next hnot =>
    refine ⟨fun _ => rfl, p, p.withIncentives [incentive], hp, fun incentive' => ?_, fun id' => ?_⟩
    · change (p.incentives.insertNew incentive PoolIncentive.zero).get? incentive' = _
      rw [Map.get?_insertNew]
      split
      next heq =>
        rw [← heq]
        cases p.incentives.get? incentive with
        | none => rfl
        | some accumulator => rfl
      next => rw [Option.or_none]
    · rw [← hid]
      exact Store.get?_setPool s (p.withIncentives [incentive]) id'

end Operation

/-! ### Values inside a range -/

/-- **The value inside a range**, difference by difference: what was collected below and above is
taken from the whole. -/
theorem valueInside_eq_ok_iff {current lower upper : Tick} {whole lo up value : Dec} :
    valueInside current lower upper whole lo up = .ok value ↔ ∃ below above rest,
      (if lower ≤ current then .ok lo else whole.sub lo) = .ok below ∧
      (if current < upper then .ok up else whole.sub up) = .ok above ∧
      whole.sub below = .ok rest ∧ rest.sub above = .ok value := by
  rw [valueInside]
  by_cases hlower : lower ≤ current <;> by_cases hupper : current < upper <;>
    simp [hlower, hupper, bind_eq_ok_iff]

/-- What an incentive has collected below a tick, as a raw integer: the outside value, unless the
current tick is below the tick, and then the rest of the whole. -/
def collectedBelow (current t : Tick) (whole outside : Dec) : Int :=
  if t ≤ current then outside.raw else whole.raw - outside.raw

/-- **A value inside a range** is what was collected below its upper boundary, less what was
collected below its lower one. -/
theorem raw_valueInside {current lower upper : Tick} {whole lo up value : Dec}
    (h : valueInside current lower upper whole lo up = .ok value) :
    value.raw = collectedBelow current upper whole up - collectedBelow current lower whole lo := by
  obtain ⟨below, above, rest, hbelow, habove, hrest, h⟩ := valueInside_eq_ok_iff.1 h
  have hlo : below.raw = collectedBelow current lower whole lo := by
    rw [collectedBelow]
    split at hbelow
    next hle => rw [if_pos hle, Except.ok.inj hbelow]
    next hlt => rw [if_neg hlt, Dec.sub_eq_ok_iff.1 hbelow]
  have hup : above.raw = whole.raw - collectedBelow current upper whole up := by
    -- the boundary is judged the other way round than a lower one, and so belongs to one side
    rw [collectedBelow]
    split at habove
    next hlt =>
      have hnot : ¬upper ≤ current := Int.not_le.2 hlt
      rw [if_neg hnot, ← Except.ok.inj habove]
      omega
    next hnot =>
      have hle : upper ≤ current := Int.not_lt.1 hnot
      rw [if_pos hle, Dec.sub_eq_ok_iff.1 habove]
  rw [Dec.sub_eq_ok_iff.1 h, Dec.sub_eq_ok_iff.1 hrest, hlo, hup]
  omega

/-- **The three sides of a range.** Below it the value inside is the outside value of the lower
boundary less that of the upper one, above it the other way round, and within it the whole less
both. -/
theorem raw_of_valueInside {current lower upper : Tick} {whole lo up value : Dec}
    (hordered : lower < upper) (h : valueInside current lower upper whole lo up = .ok value) :
    value.raw = if current < lower then lo.raw - up.raw
      else if current < upper then whole.raw - lo.raw - up.raw else up.raw - lo.raw := by
  rw [raw_valueInside h]
  rw [Bounded.lt_def] at hordered
  simp only [collectedBelow, Bounded.le_def, Bounded.lt_def]
  split_ifs <;> omega

/-- Within a range the value is answered, and not negative, if the whole covers both outside
values. -/
theorem exists_valueInside {current lower upper : Tick} {whole lo up : Dec}
    (hlower : lower ≤ current) (hupper : current < upper) (hlo : 0 ≤ lo.raw) (hup : 0 ≤ up.raw)
    (hwhole : lo.raw + up.raw ≤ whole.raw) :
    ∃ value, valueInside current lower upper whole lo up = .ok value ∧ 0 ≤ value.raw := by
  have hlimit := whole.lt_limit
  have hrange : -Dec.limit ≤ 0 := by decide
  exact ⟨⟨whole.raw - lo.raw - up.raw, by omega, by omega⟩, valueInside_eq_ok_iff.2
    ⟨lo, up, ⟨whole.raw - lo.raw, by omega, by omega⟩, if_pos hlower, if_pos hupper,
      Dec.sub_eq_ok_iff.2 rfl, Dec.sub_eq_ok_iff.2 rfl⟩, by dsimp only; omega⟩

namespace Operation

variable {s s' : Store} {c : Config}

/-- **A value inside a range is answered**, by any storage, for a range that the pool admits and an
incentive that runs there. -/
theorem storage_secondsInside_eq_ok_iff {σ : Type} [Storage σ] {s s' : σ} {id : PoolId}
    {lower upper : Tick} {incentive : IncentiveId} {value : Dec} :
    (secondsInside c id lower upper incentive).run s = (.ok value, s') ↔
      ∃ p accumulator, Storage.pool? s id = some p ∧ p.checkRange c lower upper = .ok () ∧
        p.incentives.get? incentive = some accumulator ∧
        valueInside p.tick lower upper accumulator.secondsPerLiquidity
          (((Storage.tick? s id lower).getD TickState.zero).outsideOf incentive)
          (((Storage.tick? s id upper).getD TickState.zero).outsideOf incentive) = .ok value ∧
        s = s' := by
  have houtside (t : TickState) :
      ((t.incentives.get? incentive).map TickIncentive.outside).getD Dec.zero =
        t.outsideOf incentive := by
    rw [TickState.outsideOf]
    cases t.incentives.get? incentive with
    | none => rfl
    | some r => rfl
  rw [secondsInside]
  simp only [run_bind_eq_ok_iff, storage_pool_eq_ok_iff, run_lift_eq_ok_iff]
  constructor
  · rintro ⟨p, _, ⟨hp, rfl⟩, _, _, ⟨hrange, rfl⟩, h⟩
    cases hacc : p.incentives.get? incentive with
    | none => simp only [hacc, run_throw_ne_ok] at h
    | some accumulator =>
      simp only [hacc, houtside, run_bind_eq_ok_iff, storage_tickState_eq_ok_iff,
        run_liftMath_eq_ok_iff] at h
      obtain ⟨_, _, ⟨_, -, rfl, rfl⟩, _, _, ⟨_, -, rfl, rfl⟩, hvalue, rfl⟩ := h
      exact ⟨p, accumulator, hp, hrange, hacc, hvalue, rfl⟩
  · rintro ⟨p, accumulator, hp, hrange, hacc, hvalue, rfl⟩
    refine ⟨p, s, ⟨hp, rfl⟩, (), s, ⟨hrange, rfl⟩, ?_⟩
    simp only [hacc, houtside, run_bind_eq_ok_iff, storage_tickState_eq_ok_iff,
      run_liftMath_eq_ok_iff]
    exact ⟨_, s, ⟨p, hp, rfl, rfl⟩, _, s, ⟨p, hp, rfl, rfl⟩, hvalue, rfl⟩

/-- When the store answers a value inside a range. -/
theorem secondsInside_eq_ok_iff {id : PoolId} {lower upper : Tick} {incentive : IncentiveId}
    {value : Dec} :
    (secondsInside c id lower upper incentive).run s = (.ok value, s') ↔
      ∃ p accumulator, s.pools.get? id = some p ∧ p.checkRange c lower upper = .ok () ∧
        p.incentives.get? incentive = some accumulator ∧
        valueInside p.tick lower upper accumulator.secondsPerLiquidity
          ((s.tickAt id lower).outsideOf incentive) ((s.tickAt id upper).outsideOf incentive) =
            .ok value ∧ s = s' :=
  storage_secondsInside_eq_ok_iff

end Operation

end RangeLedger
