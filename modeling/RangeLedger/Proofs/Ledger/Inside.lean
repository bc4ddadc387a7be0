import RangeLedger.Proofs.Ledger.Accumulators
import RangeLedger.Proofs.Ledger.ActiveLiquidity
import RangeLedger.Proofs.Ledger.Boundaries
import RangeLedger.Proofs.Operation.Prices

/-!
# Values inside a range

What is asked about an incentive inside a range is the seconds per unit of liquidity that it has
collected there. With the current tick in the range this is never negative, as the accumulator
covers the outside values. With the current tick on one side it is the outside value of the nearer
boundary less that of the farther one, and then it may be negative: every crossing divides the age
of the pool by the liquidity that is committed at the tick at the time, and two boundaries of one
range may have different liquidity, from positions that share one of them only.

It is not negative as long as both boundaries have the same committed liquidity and this does not
grow, the clock does not go back, and ticks are crossed by moves alone. A move through the range
crosses last the boundary that is nearer to its target, and one that stops on the way has crossed
first the boundary that is nearer to where it began. So the nearer one was crossed at a time that is
not earlier and with liquidity that is not more, and its outside value is no less. The value that a
crossing would write now is a bound for both.

Whatever is stored, the value inside a range is what was collected below its upper boundary less
what was collected below its lower one. So the values inside adjacent ranges add up.

## Main results

* `Store.Crosses.outsideAt_eq`: the outside values after some crossings.
* `Store.NearerLater`: the invariant, and `Ledger.nearerLater_after`, that it is kept.
* `Ledger.secondsInside_nonneg`: the sign of a value inside a range.
* `Ledger.secondsInside_negative`: a value that is negative.
* `Operation.secondsInside_add`: values inside adjacent ranges.
-/

namespace RangeLedger

/-! ### Seconds per unit of liquidity -/

/-- The seconds of a span of time per unit of a liquidity, as a raw integer. -/
def Duration.perUnit (age : Duration) (liquidity : Dec) : Int :=
  Rounding.halfEven.quotient (age.toDec.raw.natAbs * Dec.scale) liquidity.raw.natAbs

/-- More time comes to more seconds, and more liquidity to fewer of them per unit. -/
theorem Duration.perUnit_mono {age age' : Duration} {x x' : Dec} (hage : age ≤ age')
    (hpositive : 0 < x'.raw) (hle : x'.raw ≤ x.raw) : age.perUnit x ≤ age'.perUnit x' := by
  have hlow := age.lo_le
  have hseconds : age.toDec.raw.natAbs ≤ age'.toDec.raw.natAbs := by
    change (age.val * 1_000_000_000).natAbs ≤ (age'.val * 1_000_000_000).natAbs
    rw [Bounded.le_def] at hage
    omega
  exact Int.ofNat_le.2 ((Rounding.halfEven_anti _ (by omega) (by omega)).trans
    (Rounding.halfEven_mono (Nat.mul_le_mul_right _ hseconds) _))

/-- The time since a moment does not shrink as the clock goes on. -/
theorem Timestamp.since_le {t t' earlier : Timestamp} (h : t.nanos ≤ t'.nanos) :
    t.since earlier ≤ t'.since earlier := by
  rw [Bounded.le_def] at h ⊢
  simp only [since]
  omega

namespace Store

variable {s s' : Store} {id : PoolId} {t lower upper : Tick} {incentive : IncentiveId}

/-- The liquidity that is committed to an incentive by the positions that end at a tick. -/
def committedAt (s : Store) (id : PoolId) (t : Tick) (incentive : IncentiveId) : Dec :=
  ((s.tickAt id t).stakeOf incentive).gross

/-- The outside value of an incentive at a tick, as a raw integer. -/
def outsideAt (s : Store) (id : PoolId) (t : Tick) (incentive : IncentiveId) : Int :=
  ((s.tickAt id t).outsideOf incentive).raw

/-- Crossings keep what is committed at a tick. -/
theorem Recrossed.committedAt_eq (h : s.Recrossed s') (id : PoolId) (t : Tick)
    (incentive : IncentiveId) : s'.committedAt id t incentive = s.committedAt id t incentive :=
  congrArg Stake.gross (h.stakes id t (some incentive))

/-! ### Crossings -/

/-- A crossing writes to its own tick what the age of the pool comes to. -/
theorem outsideAt_crossTick {now : Timestamp} {t' : Tick} {net : Dec} {p : Pool}
    (hrun : (Operation.crossTick now .poolAge id t').run s = (.ok net, s'))
    (hp : s.pools.get? id = some p) (hpositive : 0 < (s.committedAt id t incentive).raw) :
    s'.outsideAt id t incentive = if t' = t then
      (now.since p.created).perUnit (s.committedAt id t incentive)
      else s.outsideAt id t incentive := by
  obtain ⟨q, after, q', hq, hafter, -, hticks, -⟩ := Operation.crossTick_accounts hrun
  obtain rfl : q = p := Option.some.inj (hq.symm.trans hp)
  rw [outsideAt, tickAt_congr (hticks id), tickAt_setTick]
  by_cases ht : t' = t
  · subst ht
    rw [if_pos ⟨rfl, rfl⟩, if_pos rfl]
    have hcross := TickState.outsideOf_cross hafter incentive
    change 0 < ((s.tickAt id t').stakeOf incentive).gross.raw at hpositive
    have hsome : ¬((s.tickAt id t').stakeOf incentive).gross.isZero = true := by
      rw [Dec.isZero, beq_iff_eq]
      omega
    rw [if_neg hsome] at hcross
    have hseconds : 0 ≤ (now.since q.created).toDec.raw := by
      have hlow := (now.since q.created).lo_le
      change 0 ≤ (now.since q.created).val * 1_000_000_000
      omega
    exact Dec.raw_quo_of_nonneg hseconds (Int.le_of_lt hpositive) hcross
  · rw [if_neg fun hat => ht hat.2, if_neg ht, outsideAt]

/-- **The outside values after some crossings**, all at one time: where ticks were crossed, what the
age of the pool comes to. -/
theorem Crosses.outsideAt_eq {now : Timestamp} {ticks : List Tick} {p : Pool}
    (h : s.Crosses now .poolAge id ticks s') (hp : s.pools.get? id = some p)
    (hpositive : 0 < (s.committedAt id t incentive).raw) :
    s'.outsideAt id t incentive = if t ∈ ticks then
      (now.since p.created).perUnit (s.committedAt id t incentive)
      else s.outsideAt id t incentive := by
  induction h generalizing p with
  | nil => rfl
  | @cons s mid s' first net rest hfirst _ ih =>
    -- age and liquidity do not change on the way, so a tick that is crossed again is no exception
    have hmid := (Operation.crossTick_recrossed hfirst).1
    obtain ⟨p', hp', heq⟩ := hmid.symm.pool hp
    have hcreated : p'.created = p.created := by rw [heq]
    have hcommitted := hmid.committedAt_eq id t incentive
    rw [ih hp' (hcommitted ▸ hpositive), outsideAt_crossTick hfirst hp hpositive, hcommitted,
      hcreated]
    by_cases hrest : t ∈ rest
    · rw [if_pos hrest, if_pos (List.mem_cons_of_mem first hrest)]
    · rw [if_neg hrest]
      refine if_congr ?_ rfl rfl
      rw [List.mem_cons, or_iff_left hrest, eq_comm]

/-! ### The invariant -/

variable (id lower upper incentive) in
/-- Both boundaries of a range have the same liquidity committed to an incentive, and some. -/
structure Level (s : Store) : Prop where
  positive : 0 < (s.committedAt id lower incentive).raw
  equal : s.committedAt id upper incentive = s.committedAt id lower incentive

instance : Decidable (s.Level id lower upper incentive) :=
  decidable_of_iff (0 < (s.committedAt id lower incentive).raw ∧
      s.committedAt id upper incentive = s.committedAt id lower incentive)
    ⟨fun h => ⟨h.1, h.2⟩, fun h => ⟨h.1, h.2⟩⟩

variable (id lower upper incentive) in
/-- The boundary that is nearer to the current tick has the later outside value, and neither is
above what a crossing would write now. -/
structure NearerLater (s : Store) (now : Timestamp) (p : Pool) : Prop where
  lower_le : s.outsideAt id lower incentive ≤
    (now.since p.created).perUnit (s.committedAt id lower incentive)
  upper_le : s.outsideAt id upper incentive ≤
    (now.since p.created).perUnit (s.committedAt id lower incentive)
  below : p.tick < lower → s.outsideAt id upper incentive ≤ s.outsideAt id lower incentive
  above : upper ≤ p.tick → s.outsideAt id lower incentive ≤ s.outsideAt id upper incentive

/-- Boundaries that were never crossed with liquidity. -/
theorem nearerLater_of_zero {now : Timestamp} {p : Pool}
    (hlower : s.outsideAt id lower incentive = 0) (hupper : s.outsideAt id upper incentive = 0) :
    s.NearerLater id lower upper incentive now p := by
  have hnonneg : 0 ≤ (now.since p.created).perUnit (s.committedAt id lower incentive) :=
    Int.natCast_nonneg _
  refine ⟨?_, ?_, fun _ => ?_, fun _ => ?_⟩ <;> omega

/-- What rests leaves the order, while time goes on and committed liquidity does not grow. -/
theorem NearerLater.of_rests {now now' : Timestamp} {p p' : Pool}
    (h : s.NearerLater id lower upper incentive now p)
    (houtside : ∀ t, s'.outsideAt id t incentive = s.outsideAt id t incentive)
    (htick : p'.tick = p.tick) (hcreated : p'.created = p.created) (hnow : now.nanos ≤ now'.nanos)
    (hpositive : 0 < (s'.committedAt id lower incentive).raw)
    (hshrinks : (s'.committedAt id lower incentive).raw ≤ (s.committedAt id lower incentive).raw) :
    s'.NearerLater id lower upper incentive now' p' := by
  have hage : now.since p.created ≤ now'.since p.created := Timestamp.since_le hnow
  have hbound := Duration.perUnit_mono hage hpositive hshrinks
  refine ⟨?_, ?_, ?_, ?_⟩
  · rw [houtside, hcreated]
    exact h.lower_le.trans hbound
  · rw [houtside, hcreated]
    exact h.upper_le.trans hbound
  · rw [houtside, houtside, htick]
    exact h.below
  · rw [houtside, houtside, htick]
    exact h.above

/-- A tick with committed liquidity is kept. -/
theorem mem_keys_of_committed (h : 0 < (s.committedAt id t incentive).raw) :
    t ∈ (s.ticksOf id).keys := by
  rw [← Map.contains_iff_mem_keys, Map.contains]
  cases hkept : (s.ticksOf id).get? t with
  | some state => rfl
  | none =>
    rw [committedAt, tickAt, hkept] at h
    exact absurd h (Int.lt_irrefl 0)

section

variable {now : Timestamp} {p : Pool} {target : Tick} {done : List Tick}
  (h : s.NearerLater id lower upper incentive now p) (hlevel : s.Level id lower upper incentive)
  (hp : s.pools.get? id = some p) (hordered : lower < upper)
  (hcross : s.Crosses now .poolAge id done s')

include h hlevel hp hcross

/-- What some crossings make of the outside values at both boundaries. -/
theorem NearerLater.outsideAt_eq (hmember : t = lower ∨ t = upper) :
    s'.outsideAt id t incentive = if t ∈ done then
      (now.since p.created).perUnit (s.committedAt id lower incentive)
      else s.outsideAt id t incentive := by
  obtain rfl | rfl := hmember
  · exact hcross.outsideAt_eq hp hlevel.positive
  · rw [hcross.outsideAt_eq hp (hlevel.equal ▸ hlevel.positive), hlevel.equal]

include hordered

/-- **A move that stops** leaves the order: the nearer boundary is crossed first. -/
theorem NearerLater.of_stopped (hdone : done <+: s.way p target) {p' : Pool}
    (htick : p'.tick = p.tick) (hcreated : p'.created = p.created) :
    s'.NearerLater id lower upper incentive now p' := by
  obtain rfl : p.id = id := Table.key_of_get? hp
  have hlow := h.outsideAt_eq hlevel hp hcross (.inl rfl)
  have hhigh := h.outsideAt_eq hlevel hp hcross (.inr rfl)
  have hlowerLe := h.lower_le
  have hupperLe := h.upper_le
  refine ⟨?_, ?_, fun hbelow => ?_, fun habove => ?_⟩
  · rw [hcreated, hcross.recrossed.committedAt_eq, hlow]
    split <;> omega
  · rw [hcreated, hcross.recrossed.committedAt_eq, hhigh]
    split <;> omega
  · -- the move starts below the range, and cannot cross the upper boundary before the lower one
    rw [htick] at hbelow
    have hlast := h.below hbelow
    have hfirst := fun hfar : upper ∈ done => mem_of_between hdone
      (mem_keys_of_committed hlevel.positive) hfar (.inl ⟨hbelow, hordered⟩)
    rw [hlow, hhigh]
    split_ifs with hupper hlower
    · omega
    · exact absurd (hfirst hupper) hlower
    · omega
    · omega
  · rw [htick] at habove
    have hlast := h.above habove
    have hfirst := fun hfar : lower ∈ done => mem_of_between hdone
      (mem_keys_of_committed (hlevel.equal ▸ hlevel.positive)) hfar (.inr ⟨hordered, habove⟩)
    rw [hlow, hhigh]
    split_ifs with hlower hupper
    · omega
    · exact absurd (hfirst hlower) hupper
    · omega
    · omega

/-- **A move that arrives** on one side of the range has crossed the nearer boundary, or was on that
side already. -/
theorem NearerLater.of_arrived (hdone : done = s.way p target) {p' : Pool}
    (htick : p'.tick = target) (hcreated : p'.created = p.created) :
    s'.NearerLater id lower upper incentive now p' := by
  obtain rfl : p.id = id := Table.key_of_get? hp
  have hlow := h.outsideAt_eq hlevel hp hcross (.inl rfl)
  have hhigh := h.outsideAt_eq hlevel hp hcross (.inr rfl)
  have hlowerLe := h.lower_le
  have hupperLe := h.upper_le
  have hlowerKept := mem_keys_of_committed hlevel.positive
  have hupperKept := mem_keys_of_committed (hlevel.equal ▸ hlevel.positive)
  simp only [hdone, mem_way, hlowerKept, hupperKept, true_and, Bounded.le_def, Bounded.lt_def]
    at hlow hhigh hordered
  -- with both boundaries kept, what was crossed is a question of where the move began and ended
  have hbelow := h.below
  have habove := h.above
  simp only [Bounded.le_def, Bounded.lt_def] at hbelow habove
  refine ⟨?_, ?_, fun hside => ?_, fun hside => ?_⟩
  · rw [hcreated, hcross.recrossed.committedAt_eq, hlow]
    split <;> omega
  · rw [hcreated, hcross.recrossed.committedAt_eq, hhigh]
    split <;> omega
  · rw [htick, Bounded.lt_def] at hside
    rw [hlow, hhigh]
    split_ifs <;> omega
  · rw [htick, Bounded.le_def] at hside
    rw [hlow, hhigh]
    split_ifs <;> omega

end

/-! ### What rests -/

/-- The outside values of a pool rest, and so do its tick and the time of its creation. -/
structure Rests (s s' : Store) (id : PoolId) : Prop where
  outside : ∀ t incentive, s'.outsideAt id t incentive = s.outsideAt id t incentive
  pool : ∀ p', s'.pools.get? id = some p' → ∃ p, s.pools.get? id = some p ∧ p'.tick = p.tick ∧
    p'.created = p.created

/-- Where nothing changes everything rests. -/
theorem Rests.refl (s : Store) (id : PoolId) : s.Rests s id :=
  ⟨fun _ _ => rfl, fun p' hp' => ⟨p', hp', rfl, rfl⟩⟩

/-- What rests through two changes rests through both together. -/
theorem Rests.trans {s'' : Store} (h : s.Rests s' id) (h' : s'.Rests s'' id) : s.Rests s'' id := by
  refine ⟨fun t incentive => (h'.outside t incentive).trans (h.outside t incentive),
    fun p'' hp'' => ?_⟩
  obtain ⟨p', hp', htick', hcreated'⟩ := h'.pool p'' hp''
  obtain ⟨p, hp, htick, hcreated⟩ := h.pool p' hp'
  exact ⟨p, hp, htick'.trans htick, hcreated'.trans hcreated⟩

/-- A change that is nothing to incentives keeps outside values. -/
theorem KeepsIncentives.outsideAt_eq (h : s.KeepsIncentives s') (id : PoolId) (t : Tick)
    (incentive : IncentiveId) : s'.outsideAt id t incentive = s.outsideAt id t incentive := by
  rw [outsideAt, tickAt_congr (h.ticks id), outsideAt]

/-- A change of the stake at a tick keeps outside values. -/
theorem outsideAt_changeTick {now : Timestamp} {id' : PoolId} {t' : Tick} {edge : Edge}
    {delta : Dec} {ids : OrderedSet IncentiveId}
    (hrun : (Operation.changeTick now id' t' edge delta ids).run s = (.ok (), s')) (id : PoolId)
    (t : Tick) (incentive : IncentiveId) :
    s'.outsideAt id t incentive = s.outsideAt id t incentive := by
  obtain ⟨p, after, -, hafter, rfl⟩ := Operation.changeTick_eq_ok_iff.1 hrun
  rw [outsideAt, tickAt_setTick]
  split
  next hat =>
    obtain ⟨rfl, rfl⟩ := hat
    rw [(TickState.outsideOf_change hafter incentive).1, outsideAt]
  next => rfl

/-- A deposit into a pool that has a price lets everything rest. -/
theorem rests_of_deposit {now : Timestamp} {c : Config} {d : Deposit} {r : Receipt}
    (hrun : (Operation.deposit now c d).run s = (.ok r, s'))
    (hpriced : s.priceOf id ≠ some Pool.noPrice) : s.Rests s' id := by
  refine ⟨fun t incentive => ?_, fun p' hp' => ?_⟩
  · obtain ⟨s₁, s₂, s₃, hbefore, hlower, hupper, hrest⟩ := Operation.deposit_accounts hrun
    rw [hrest.outsideAt_eq, outsideAt_changeTick hupper, outsideAt_changeTick hlower,
      hbefore.outsideAt_eq]
  · obtain ⟨found, _, s₁, _, hfound, -, hopened, -, -, -, -, hs⟩ := Operation.deposit_effect hrun
    obtain ⟨q, hq, hq'⟩ := hs.pool hp'
    obtain ⟨p, hp, hp''⟩ := hopened.pool hfound hq
    have hprice := Operation.deposit_priceOf hrun fun _ => hpriced
    rw [priceOf_of_get? hp, priceOf_of_get? hp', Option.some.injEq] at hprice
    refine ⟨p, hp, congrArg Prod.fst hprice, ?_⟩
    rw [hq', hp'']

/-- Under a withdrawal a pool rests. -/
theorem rests_of_withdraw {now : Timestamp} {c : Config} {w : Withdrawal} {out : Amount × Amount}
    (hrun : (Operation.withdraw now c w).run s = (.ok out, s')) : s.Rests s' id := by
  refine ⟨fun t incentive => ?_, fun p' hp' => ?_⟩
  · obtain ⟨s₁, s₂, hlower, hupper, hrest⟩ := Operation.withdraw_accounts hrun
    rw [hrest.outsideAt_eq, outsideAt_changeTick hupper, outsideAt_changeTick hlower]
  · obtain ⟨_, _, _, -, -, -, -, -, -, -, -, -, hs⟩ := Operation.withdraw_effect hrun
    obtain ⟨p, hp, heq⟩ := hs.pool hp'
    refine ⟨p, hp, ?_, ?_⟩ <;> rw [heq]

/-- Under a new incentive a pool rests. -/
theorem rests_of_addIncentive {id' : PoolId} {incentive : IncentiveId}
    (hrun : (Operation.addIncentive id' incentive).run s = (.ok (), s')) : s.Rests s' id := by
  refine ⟨fun t incentive' => ?_, fun p' hp' => ?_⟩
  · obtain ⟨hticks, -⟩ := Operation.addIncentive_accounts hrun
    rw [outsideAt, tickAt_congr (hticks id), outsideAt]
  · obtain ⟨p, hp, heq⟩ := (Operation.addIncentive_recrossed hrun).pool hp'
    refine ⟨p, hp, ?_, ?_⟩ <;> rw [heq]

/-- Crossings on another pool let everything rest. -/
theorem Crosses.rests {now : Timestamp} {mode : InactiveMode} {id' : PoolId} {ticks : List Tick}
    (h : s.Crosses now mode id' ticks s') (hne : id' ≠ id) : s.Rests s' id := by
  refine h.invariant (s.Rests · id) (fun s₁ s₂ t net hrun hs => hs.trans ?_) (.refl s id)
  obtain ⟨_, after, _, -, -, -, hticks, hpools⟩ := Operation.crossTick_accounts hrun
  refine ⟨fun t' incentive => ?_, fun p' hp' => ⟨p', ?_, rfl, rfl⟩⟩
  · rw [outsideAt, tickAt_congr (hticks id), tickAt_setTick, if_neg fun hat => hne hat.1, outsideAt]
  · rwa [hpools, if_neg hne] at hp'

/-- A pool in which liquidity is committed has a price. -/
theorem Balanced.priceOf_ne (h : s.Balanced) (hticks : s.TicksMatch)
    (hpositive : 0 < (s.committedAt id t incentive).raw) : s.priceOf id ≠ some Pool.noPrice := by
  intro hprice
  obtain ⟨p, hp, hnone⟩ := Option.map_eq_some_iff.1 hprice
  obtain rfl : p.id = id := Table.key_of_get? hp
  have hgross := hticks.gross p.id t (some incentive)
  rw [liquidityOf_eq_zero fun _ _ hposition htouches =>
    h.pool_ne hp (Pool.isUnpriced_iff.2 hnone) hposition htouches.1] at hgross
  exact Int.ne_of_gt hpositive hgross

end Store

/-! ### Steady runs -/

/-- A trade that crosses no tick by itself: ticks are crossed by moves of the price alone. -/
def Event.MovesOnly (e : Event) : Prop := e.IsTrade ∧ ∀ id t, e ≠ .cross id t

namespace Ledger

variable {l l' : Ledger} {id : PoolId} {lower upper : Tick} {incentive : IncentiveId}

/-- Everything but a crossing and a move lets a pool rest in which liquidity is committed. -/
theorem rests_of_event {e : Event} (hpriced : l.store.priceOf id ≠ some Pool.noPrice)
    (hcross : ∀ id t, e ≠ .cross id t) (hmove : ∀ id target root, e ≠ .move id target root) :
    l.store.Rests (e.apply l).store id := by
  have heffect := e.effect_apply l
  generalize (e.apply l).store = s, (e.apply l).bank = bank at heffect ⊢
  cases heffect with
  | still => exact .refl _ _
  | deposit hrun => exact Store.rests_of_deposit hrun hpriced
  | withdraw hrun => exact Store.rests_of_withdraw hrun
  | cross => exact absurd rfl (hcross _ _)
  | addIncentive hrun => exact Store.rests_of_addIncentive hrun
  | stopped => exact absurd rfl (hmove _ _ _)
  | moved => exact absurd rfl (hmove _ _ _)

section

variable {target : Tick} {sqrtPrice : Except MathError Dec}
  {outcome : Except LedgerError (List Tick)}

/-- A move on another pool lets everything rest. -/
theorem rests_of_move {id' : PoolId} (hmove : (moveTo id' target sqrtPrice).run l = (outcome, l'))
    (hne : id' ≠ id) : l.store.Rests l'.store id := by
  obtain ⟨-, -, htravelled⟩ := travelled_of_moveTo hmove
  generalize l'.store = s' at htravelled ⊢
  cases htravelled with
  | still => exact .refl _ _
  | stopped _ _ hcross => exact hcross.rests hne
  | arrived _ hcross hcurrent _ =>
    obtain rfl := Table.key_of_get? hcurrent
    refine (hcross.rests hne).trans ⟨fun _ _ => rfl, fun p' hp' => ⟨p', ?_, rfl, rfl⟩⟩
    rwa [Store.get?_setPool, if_neg hne] at hp'

/-- **A move leaves the order**, whether it stops or arrives. -/
theorem nearerLater_of_move (hmode : l.config.inactiveMode = .poolAge)
    (hlevel : l.store.Level id lower upper incentive) (hordered : lower < upper)
    (h : ∀ p, l.store.pools.get? id = some p →
      l.store.NearerLater id lower upper incentive l.clock.now p)
    (hmove : (moveTo id target sqrtPrice).run l = (outcome, l')) {p' : Pool}
    (hp' : l'.store.pools.get? id = some p') :
    l'.store.NearerLater id lower upper incentive l'.clock.now p' := by
  obtain ⟨hclock, -, htravelled⟩ := travelled_of_moveTo hmove
  rw [hclock]
  generalize l'.store = s' at htravelled hp' ⊢
  cases htravelled with
  | still => exact h p' hp'
  | stopped hp hdone hcross =>
    obtain ⟨p, hfound, heq⟩ := hcross.recrossed.pool hp'
    obtain rfl := Option.some.inj (hfound.symm.trans hp)
    rw [hmode] at hcross
    exact (h p hp).of_stopped hlevel hp hordered hcross hdone (by rw [heq]) (by rw [heq])
  | @arrived p current mid root liquidity hp hcross hcurrent hroot =>
    obtain ⟨q, hfound, heq⟩ := hcross.recrossed.pool hcurrent
    obtain rfl := Option.some.inj (hfound.symm.trans hp)
    obtain rfl : current.id = id := Table.key_of_get? hcurrent
    rw [hmode] at hcross
    rw [Store.get?_setPool, if_pos rfl, Option.some.injEq] at hp'
    have hmid : mid.NearerLater current.id lower upper incentive l.clock.now p' :=
      (h q hp).of_arrived hlevel hp hordered hcross rfl (by rw [← hp']) (by rw [← hp', heq])
    exact ⟨hmid.lower_le, hmid.upper_le, hmid.below, hmid.above⟩

end

/-- A run during which both boundaries always have the same committed liquidity, which does not
grow, on a clock that does not go back. -/
def Steady (id : PoolId) (lower upper : Tick) (incentive : IncentiveId) : Ledger → List Event → Prop
  | _, [] => True
  | l, e :: rest => ((e.apply l).store.Level id lower upper incentive ∧
      ((e.apply l).store.committedAt id lower incentive).raw ≤
        (l.store.committedAt id lower incentive).raw ∧
      l.clock.now.nanos ≤ (e.apply l).clock.now.nanos) ∧
    Steady id lower upper incentive (e.apply l) rest

instance decidableSteady : (l : Ledger) → (events : List Event) →
    Decidable (Steady id lower upper incentive l events)
  | _, [] => .isTrue trivial
  | l, e :: rest =>
    haveI := decidableSteady (e.apply l) rest
    inferInstanceAs (Decidable (_ ∧ _))

/-- **One step of a steady run** leaves the order. -/
theorem nearerLater_of_event {e : Event} (hmode : l.config.inactiveMode = .poolAge)
    (hpriced : l.store.priceOf id ≠ some Pool.noPrice) (hmoves : e.MovesOnly)
    (hlevel : l.store.Level id lower upper incentive) (hordered : lower < upper)
    (hlevel' : (e.apply l).store.Level id lower upper incentive)
    (hshrinks : ((e.apply l).store.committedAt id lower incentive).raw ≤
      (l.store.committedAt id lower incentive).raw)
    (hforward : l.clock.now.nanos ≤ (e.apply l).clock.now.nanos)
    (h : ∀ p, l.store.pools.get? id = some p →
      l.store.NearerLater id lower upper incentive l.clock.now p) {p' : Pool}
    (hp' : (e.apply l).store.pools.get? id = some p') :
    (e.apply l).store.NearerLater id lower upper incentive (e.apply l).clock.now p' := by
  have hrested (hrests : l.store.Rests (e.apply l).store id) :
      (e.apply l).store.NearerLater id lower upper incentive (e.apply l).clock.now p' := by
    obtain ⟨p, hp, htick, hcreated⟩ := hrests.pool p' hp'
    exact (h p hp).of_rests (fun t => hrests.outside t incentive) htick hcreated hforward
      hlevel'.positive hshrinks
  cases e with
  | cross id' t => exact absurd rfl (hmoves.2 id' t)
  | move id' target sqrtPrice =>
    rcases hmove : (moveTo id' target sqrtPrice).run l with ⟨outcome, l'⟩
    rw [Event.apply, hmove] at hp' hrested ⊢
    by_cases hid : id' = id
    · subst hid
      exact nearerLater_of_move hmode hlevel hordered h hmove hp'
    · exact hrested (rests_of_move hmove hid)
  | _ => exact hrested (rests_of_event hpriced (fun _ _ h => by cases h) (fun _ _ _ h => by cases h))

/-- **The nearer boundary has the later outside value** after every steady run. -/
theorem nearerLater_after (hl : l.store.IsFresh) (hmode : l.config.inactiveMode = .poolAge)
    (hordered : lower < upper) {before more : List Event} (hbefore : ∀ e ∈ before, e.IsTrade)
    (hmore : ∀ e ∈ more, e.MovesOnly)
    (hlevel : (l.after before).store.Level id lower upper incentive)
    (hsteady : Steady id lower upper incentive (l.after before) more)
    (h : ∀ p, (l.after before).store.pools.get? id = some p → (l.after before).store.NearerLater id
      lower upper incentive (l.after before).clock.now p) :
    ∀ p, (l.after (before ++ more)).store.pools.get? id = some p →
      (l.after (before ++ more)).store.NearerLater id lower upper incentive
        (l.after (before ++ more)).clock.now p := by
  -- the events that are done join those before, as the pool has to be known to have a price
  induction more generalizing before with
  | nil => rwa [List.append_nil]
  | cons e rest ih =>
    obtain ⟨⟨hlevel', hshrinks, hforward⟩, hsteady⟩ := hsteady
    have hmoves := hmore e List.mem_cons_self
    have hpriced := (Store.balanced_after_trades hl hbefore).priceOf_ne
      (Store.ticksMatch_after hl before) hlevel.positive
    have hnext : (l.after (before ++ [e])) = e.apply (l.after before) := after_append l before [e]
    have hstep := @ih (before ++ [e])
    rw [hnext, List.append_assoc] at hstep
    refine hstep ?_ (fun e' he' => hmore e' (List.mem_cons_of_mem e he')) hlevel' hsteady ?_
    · exact List.forall_mem_append.2 ⟨hbefore, List.forall_mem_singleton.2 hmoves.1⟩
    · intro p' hp'
      exact nearerLater_of_event (by rw [config_after, hmode]) hpriced hmoves hlevel hordered
        hlevel' hshrinks hforward h hp'

/-- **A value inside a range, from its side**: with the current tick in the range it is not negative,
and otherwise it is the outside value of the nearer boundary less that of the farther one. -/
theorem sides_of_secondsInside (hl : l.store.IsFresh) {events : List Event} {value : Dec}
    (h : (secondsInside id lower upper incentive).run (l.after events) = (.ok value, l')) :
    lower < upper ∧ ∃ p, (l.after events).store.pools.get? id = some p ∧
      (lower ≤ p.tick → p.tick < upper → 0 ≤ value.raw) ∧
      (p.tick < lower → value.raw = (l.after events).store.outsideAt id lower incentive -
        (l.after events).store.outsideAt id upper incentive) ∧
      (upper ≤ p.tick → value.raw = (l.after events).store.outsideAt id upper incentive -
        (l.after events).store.outsideAt id lower incentive) := by
  obtain ⟨⟨s, hrun⟩, -⟩ : (∃ s, (Operation.secondsInside (l.after events).config id lower upper
      incentive).run (l.after events).store = (.ok value, s)) ∧ l' = l.after events :=
    Call.run_read_eq_ok h
  obtain ⟨p, accumulator, hp, hrange, hacc, hvalue, -⟩ := Operation.secondsInside_eq_ok_iff.1 hrun
  have hordered := (Pool.checkRange_eq_ok_iff.1 hrange).2.2.2.1
  have hsides := raw_of_valueInside hordered hvalue
  refine ⟨hordered, p, hp, fun hlower hupper => ?_, fun hside => ?_, fun hside => ?_⟩
  · obtain ⟨value', hvalue', hnonneg⟩ :=
      (Store.accrued_after hl events).exists_valueInside hp hacc hordered hlower hupper
    rwa [← Except.ok.inj (hvalue'.symm.trans hvalue)]
  · rw [if_pos hside] at hsides
    exact hsides
  · have hnotUpper : ¬p.tick < upper := Int.not_lt.2 hside
    have hnotLower : ¬p.tick < lower := fun hlt => hnotUpper (Int.lt_trans hlt hordered)
    rw [if_neg hnotLower, if_neg hnotUpper] at hsides
    exact hsides

/-- **The sign of a value inside a range.** After every run on a fresh ledger, let the ledger answer
the value of an incentive inside a range. With the current tick in the range the value is not
negative. Below the range it is the outside value of the lower boundary less that of the upper one,
and above the range the other way round. This is not negative either, if ticks are crossed by moves
alone, in the mode of the age of the pool, and if, ever since both outside values were zero, both
boundaries had the same committed liquidity, which did not grow, and the clock did not go back. -/
theorem secondsInside_nonneg (hl : l.store.IsFresh) {events : List Event} {value : Dec}
    (h : (secondsInside id lower upper incentive).run (l.after events) = (.ok value, l')) :
    ∃ p, (l.after events).store.pools.get? id = some p ∧
      (lower ≤ p.tick → p.tick < upper → 0 ≤ value.raw) ∧
      (p.tick < lower → value.raw = (l.after events).store.outsideAt id lower incentive -
        (l.after events).store.outsideAt id upper incentive) ∧
      (upper ≤ p.tick → value.raw = (l.after events).store.outsideAt id upper incentive -
        (l.after events).store.outsideAt id lower incentive) ∧
      (l.config.inactiveMode = .poolAge → ∀ before more, events = before ++ more →
        (∀ e ∈ before, e.IsTrade) → (∀ e ∈ more, e.MovesOnly) →
        (l.after before).store.outsideAt id lower incentive = 0 →
        (l.after before).store.outsideAt id upper incentive = 0 →
        (l.after before).store.Level id lower upper incentive →
        Steady id lower upper incentive (l.after before) more → 0 ≤ value.raw) := by
  obtain ⟨hordered, p, hp, hinside, hbelow, habove⟩ := sides_of_secondsInside hl h
  refine ⟨p, hp, hinside, hbelow, habove, ?_⟩
  rintro hmode before more rfl hbefore hmore hlower hupper hlevel hsteady
  have horder := nearerLater_after hl hmode hordered hbefore hmore hlevel hsteady
    (fun _ _ => Store.nearerLater_of_zero hlower hupper) p hp
  rcases Int.lt_or_le p.tick.val lower.val with hside | hlow
  · have hle := horder.below hside
    rw [hbelow hside]
    omega
  rcases Int.lt_or_le p.tick.val upper.val with hside | hhigh
  · exact hinside hlow hside
  · have hle := horder.above hhigh
    rw [habove hhigh]
    omega

end Ledger

namespace Sample

/-- The small ledger, with an incentive that runs on its pool from the start. -/
def incentivized : Ledger :=
  { ledger with store := Store.ofPools [pool.withIncentives [incentive]] }

/-- The ledger with an incentive is fresh, too. -/
theorem incentivized_isFresh : incentivized.store.IsFresh :=
  Store.isFresh_ofPools fun p hp => by
    obtain rfl := List.mem_singleton.1 hp
    exact pool_isFresh.withIncentives [incentive]

/-- The clock is set to a number of seconds. -/
def clockAt (seconds : Int) : Event := .setTime (time seconds)

/-- A move of the price of the pool to that of a tick. -/
def swap (n : Int) : Event := .move pool.id (tick n) (tick n).sqrtPrice

/-- Setting the clock crosses no tick. -/
theorem movesOnly_clockAt (seconds : Int) : (clockAt seconds).MovesOnly :=
  ⟨trivial, fun _ _ h => by cases h⟩

/-- A swap crosses ticks only as a move of the price. -/
theorem movesOnly_swap (n : Int) : (swap n).MovesOnly :=
  ⟨Event.isTrade_swap _ _, fun _ _ h => by cases h⟩

/-- A deposit crosses no tick. -/
theorem movesOnly_deposit (d : Deposit) : (Event.deposit d).MovesOnly :=
  ⟨trivial, fun _ _ h => by cases h⟩

/-- A position around the current tick. -/
def single : List Event := [.deposit (committed 500 500 (-10) 10)]

/-- A deposit is a trade. -/
theorem isTrade_single : ∀ e ∈ single, e.IsTrade := by
  simp [single, Event.IsTrade]

/-- Moves out of the range of the position, back into it and out of it on the other side. -/
def through : List Event := [clockAt 100, swap 15, clockAt 200, swap 0, clockAt 300, swap (-15)]

/-- All of these set the clock or move the price. -/
theorem movesOnly_through : ∀ e ∈ through, e.MovesOnly := by
  simp [through, movesOnly_swap, movesOnly_clockAt]

/-- Two positions that share their lower boundary, and moves through both ranges at one time. -/
def shared : List Event :=
  [.deposit (committed 500 500 (-10) 10), .deposit (committed 500 500 (-10) 20), clockAt 100,
    swap 15, swap (-15)]

/-- All of these are deposits, or set the clock, or move the price. -/
theorem movesOnly_shared : ∀ e ∈ shared, e.MovesOnly := by
  simp [shared, movesOnly_deposit, movesOnly_swap, movesOnly_clockAt]

end Sample

/-- Below the range of a single position: both of its boundaries always had its liquidity, and the
lower one was crossed last. -/
theorem Ledger.secondsInside_nonneg_sample :
    ∃ value l', (Ledger.secondsInside Sample.pool.id (Sample.tick (-10)) (Sample.tick 10)
        Sample.incentive).run (Sample.incentivized.after (Sample.single ++ Sample.through)) =
          (.ok value, l') ∧ value.raw = 99970006998600 ∧ 0 ≤ value.raw := by
  obtain ⟨value, l', hrun, hraw⟩ : ∃ value l', (Ledger.secondsInside Sample.pool.id
      (Sample.tick (-10)) (Sample.tick 10) Sample.incentive).run
        (Sample.incentivized.after (Sample.single ++ Sample.through)) = (.ok value, l') ∧
          value.raw = 99970006998600 := Call.exists_of_any (by decide +kernel)
  obtain ⟨p, -, -, -, -, hnonneg⟩ := Ledger.secondsInside_nonneg Sample.incentivized_isFresh hrun
  exact ⟨value, l', hrun, hraw, hnonneg rfl Sample.single Sample.through rfl Sample.isTrade_single
    Sample.movesOnly_through (by decide +kernel) (by decide +kernel) (by decide +kernel)
    (by decide +kernel)⟩

/-- **A value inside a range that is negative**, below the range of a stored position. The lower
boundary is shared with another position, and so comes to fewer seconds per unit of liquidity than
the upper one when both are crossed at one time. -/
theorem Ledger.secondsInside_negative : Sample.incentivized.store.IsFresh ∧
    Sample.incentivized.config.inactiveMode = .poolAge ∧ (∀ e ∈ Sample.shared, e.MovesOnly) ∧
    (∃ position, (Sample.incentivized.after Sample.shared).store.positions.get?
      (Sample.committed 500 500 (-10) 10).key = some position) ∧
    ∃ value l', (Ledger.secondsInside Sample.pool.id (Sample.tick (-10)) (Sample.tick 10)
      Sample.incentive).run (Sample.incentivized.after Sample.shared) = (.ok value, l') ∧
        value.raw < 0 := by
  refine ⟨Sample.incentivized_isFresh, rfl, Sample.movesOnly_shared, ?_,
    Call.exists_of_any (by decide +kernel)⟩
  exact Option.isSome_iff_exists.1 (by decide +kernel)

/-! ### Adjacent ranges -/

namespace Operation

variable {σ : Type} [Storage σ]

/-- Whatever ranges are asked about, a value inside one is the difference of two numbers, of which
each belongs to one boundary and does not depend on the other. -/
theorem exists_collectedBelow (s : σ) (id : PoolId) (incentive : IncentiveId) :
    ∃ below : Tick → Int, ∀ {c : Config} {lower upper : Tick} {value : Dec},
      ((secondsInside c id lower upper incentive).run s).1 = .ok value →
        value.raw = below upper - below lower := by
  cases hp : Storage.pool? s id with
  | none =>
    refine ⟨fun _ => 0, fun h => ?_⟩
    obtain ⟨p, -, hp', -⟩ := storage_secondsInside_eq_ok_iff.1 (Prod.ext h rfl)
    rw [hp] at hp'
    cases hp'
  | some p =>
    let outside (t : Tick) : Dec :=
      ((Storage.tick? s id t).getD TickState.zero).outsideOf incentive
    let whole : Dec := ((p.incentives.get? incentive).getD PoolIncentive.zero).secondsPerLiquidity
    refine ⟨fun t => collectedBelow p.tick t whole (outside t), fun h => ?_⟩
    obtain ⟨p', accumulator, hp', -, hacc, hvalue, -⟩ :=
      storage_secondsInside_eq_ok_iff.1 (Prod.ext h rfl)
    obtain rfl : p = p' := Option.some.inj (hp.symm.trans hp')
    have hwhole : whole = accumulator.secondsPerLiquidity := by
      change ((p.incentives.get? incentive).getD _).secondsPerLiquidity = _
      rw [hacc, Option.getD_some]
    rw [raw_valueInside hvalue, hwhole]

/-- **Values inside adjacent ranges add up.** Let any storage answer the values of an incentive
inside two ranges that share a boundary and inside the range of both. Then the last is the sum of
the other two, on whichever side of the three boundaries the current tick lies. -/
theorem secondsInside_add (s : σ) (c : Config) (id : PoolId) (incentive : IncentiveId)
    {lower middle upper : Tick} {x y z : Dec}
    (hx : ((secondsInside c id lower middle incentive).run s).1 = .ok x)
    (hy : ((secondsInside c id middle upper incentive).run s).1 = .ok y)
    (hz : ((secondsInside c id lower upper incentive).run s).1 = .ok z) :
    z.raw = x.raw + y.raw := by
  obtain ⟨below, hbelow⟩ := exists_collectedBelow s id incentive
  rw [hbelow hx, hbelow hy, hbelow hz]
  omega

end Operation

/-- Below three boundaries of which the outer two were crossed: one of the parts is negative. -/
theorem Operation.secondsInside_add_sample :
    let s := (Sample.incentivized.after (Sample.single ++ Sample.through)).store
    let inside (lower upper : Int) := ((Operation.secondsInside Sample.incentivized.config
      Sample.pool.id (Sample.tick lower) (Sample.tick upper) Sample.incentive).run s).1
    ∃ x y z, inside (-10) 0 = .ok x ∧ inside 0 10 = .ok y ∧ inside (-10) 10 = .ok z ∧
      x.raw = 299910020995801 ∧ y.raw = -199940013997201 ∧ z.raw = x.raw + y.raw := by
  intro s inside
  have hx : inside (-10) 0 = .ok ⟨299910020995801, by decide, by decide⟩ := by decide +kernel
  have hy : inside 0 10 = .ok ⟨-199940013997201, by decide, by decide⟩ := by decide +kernel
  have hz : inside (-10) 10 = .ok ⟨99970006998600, by decide, by decide⟩ := by decide +kernel
  exact ⟨_, _, _, hx, hy, hz, rfl, rfl, Operation.secondsInside_add s _ _ _ hx hy hz⟩

end RangeLedger
