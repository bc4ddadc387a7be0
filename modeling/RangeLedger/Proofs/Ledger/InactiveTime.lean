import RangeLedger.Proofs.Ledger.Inside
import RangeLedger.Proofs.Ledger.Pricing
import RangeLedger.Proofs.Ledger.Steps
import RangeLedger.Proofs.Operation.Accounts
import RangeLedger.Proofs.Tick.Order

/-!
# How long a tick has been inactive

In the mode since the last crossing, a crossing leaves the age of the pool less the time that the
tick holds. The first liquidity at a tick stamps it with the age of the pool, so the first crossing
leaves the time that has passed since. From then on the tick holds a span of time and no longer an
age. The second crossing takes that span from the age of the pool, so it leaves the time since the
first crossing and, on top of it, what the tick held before. So it goes on: a crossing leaves the
mere time since the previous one only if the tick held nothing before that one.

With liquidity at the tick nothing but a crossing changes the time that it holds, whatever is asked
of the ledger, and this time never exceeds the age of the pool unless the clock goes back. So the
difference is exact, and what one crossing leaves is there for the next.

## Main results

* `Step.restaked`: what a step that is no crossing can do to a tick.
* `Ledger.inactiveAt_of_crossTick`: what a crossing makes of the time that a tick holds.
* `Ledger.inactiveAt_after_quiet`, `Ledger.inactiveAt_le_after`: the two inductions over runs.
* `Ledger.inactive_since_crossing`: what the first crossing of a tick leaves, and each later one.
* `Ledger.inactive_not_gap`: crossings that do not leave the time since the previous one.
-/

namespace RangeLedger

/-! ### What a tick holds -/

namespace TickState

variable {t t' : TickState}

/-- A stamp sets the time of a tick that nothing references, and keeps any other. -/
theorem inactive_stamp (t : TickState) (age : Duration) :
    (t.stamp age).inactive = if t.isInactive then age else t.inactive := by
  rw [stamp]
  split
  · rfl
  · rfl

/-- A crossing refreshes the time. -/
theorem inactive_cross {mode : InactiveMode} {age : Duration} (h : t.cross mode age = .ok t') :
    t'.inactive = mode.refresh age t.inactive := by
  obtain ⟨records, -, h⟩ := bind_eq_ok_iff.1 h
  cases h
  rfl

end TickState

namespace Store

variable {s s' : Store} {id : PoolId} {t : Tick} {now : Timestamp}

/-- The inactive time that a tick holds. -/
def inactiveAt (s : Store) (id : PoolId) (t : Tick) : Duration := (s.tickAt id t).inactive

/-- Some liquidity ends at a tick. -/
def Staked (s : Store) (id : PoolId) (t : Tick) : Prop := (s.tickAt id t).stake.gross ≠ Dec.zero

instance : Decidable (s.Staked id t) := inferInstanceAs (Decidable (_ ≠ _))

/-- The time at which a pool was created. -/
def createdOf (s : Store) (id : PoolId) : Option Timestamp := (s.pools.get? id).map Pool.created

/-- A tick at which liquidity ends is referenced. -/
theorem Staked.isInactive_eq_false (h : s.Staked id t) : (s.tickAt id t).isInactive = false := by
  rw [TickState.isInactive, Stake.isZero, Bool.and_eq_false_iff]
  refine .inl (Bool.eq_false_iff.2 fun hzero => h (Dec.ext ?_))
  rw [Dec.isZero, beq_iff_eq] at hzero
  exact hzero

/-- A pool that is continued keeps the time of its creation. -/
theorem Continues.createdOf_eq (h : s.Continues s') {created : Timestamp}
    (hcreated : s.createdOf id = some created) : s'.createdOf id = some created := by
  obtain ⟨p, hp, rfl⟩ := Option.map_eq_some_iff.1 hcreated
  obtain ⟨q, hq, hcontinues⟩ := h id p hp
  rw [createdOf, hq, Option.map_some, hcontinues.created]

/-! ### Between crossings -/

/-- A tick is left as it is, or it keeps the time that it holds and may have been stamped before, if
nothing referenced it. -/
def Restaked (s s' : Store) (now : Timestamp) (id : PoolId) (t : Tick) : Prop :=
  s'.tickAt id t = s.tickAt id t ∨ ∃ created, s.createdOf id = some created ∧
    s'.inactiveAt id t =
      if (s.tickAt id t).isInactive then now.since created else s.inactiveAt id t

/-- Where the ticks are kept no tick is stamped. -/
theorem restaked_of_ticks (h : ∀ id, s'.ticksOf id = s.ticksOf id) : s.Restaked s' now id t :=
  .inl (tickAt_congr (h id) t)

/-- With liquidity at the tick, the time that it holds does not change. -/
theorem Restaked.inactiveAt_eq (h : s.Restaked s' now id t) (hstaked : s.Staked id t) :
    s'.inactiveAt id t = s.inactiveAt id t := by
  obtain hsame | ⟨created, -, hinactive⟩ := h
  · rw [inactiveAt, hsame, inactiveAt]
  · rw [hinactive, hstaked.isInactive_eq_false]
    exact if_neg Bool.false_ne_true

/-- The first liquidity at a tick comes with the age of the pool. -/
theorem Restaked.inactiveAt_of_first (h : s.Restaked s' now id t)
    (hunused : (s.tickAt id t).isInactive = true) (hstaked : s'.Staked id t) :
    ∃ created, s.createdOf id = some created ∧ s'.inactiveAt id t = now.since created := by
  obtain hsame | ⟨created, hcreated, hinactive⟩ := h
  · have hused := hstaked.isInactive_eq_false
    rw [hsame, hunused] at hused
    cases hused
  · rw [if_pos hunused] at hinactive
    exact ⟨created, hcreated, hinactive⟩

end Store

namespace Operation

variable {s s' : Store} {id : PoolId} {t : Tick} {now : Timestamp}

/-- A change of a tick changes that tick alone. -/
theorem changeTick_restaked (id : PoolId) (t : Tick) {id' : PoolId} {t' : Tick} {edge : Edge}
    {delta : Dec} {ids : OrderedSet IncentiveId}
    (h : (changeTick now id' t' edge delta ids).run s = (.ok (), s')) :
    s.Restaked s' now id t ∧ (¬(id' = id ∧ t' = t) → s'.tickAt id t = s.tickAt id t) ∧
      s'.pools = s.pools := by
  obtain ⟨p, after, hp, hafter, rfl⟩ := changeTick_eq_ok_iff.1 h
  refine ⟨?_, fun hne => ?_, rfl⟩
  · by_cases hat : id' = id ∧ t' = t
    · obtain ⟨rfl, rfl⟩ := hat
      refine .inr ⟨p.created, ?_, ?_⟩
      · rw [Store.createdOf, hp, Option.map_some]
      · rw [Store.inactiveAt, Store.tickAt_setTick, if_pos ⟨rfl, rfl⟩,
          TickState.inactive_change hafter, TickState.inactive_stamp, Store.inactiveAt]
    · exact .inl ((Store.tickAt_setTick _ _ _ _ _).trans (if_neg hat))
  · exact (Store.tickAt_setTick _ _ _ _ _).trans (if_neg hne)

/-- The two boundaries of a range are different ticks, so no tick is changed twice. -/
theorem changePosition_restaked (id : PoolId) (t : Tick) {position : Position} {delta : Dec}
    (hordered : position.key.lower < position.key.upper)
    (h : (changePosition now position delta).run s = (.ok (), s')) : s.Restaked s' now id t := by
  obtain ⟨s₁, s₂, hlower, hupper, hrest⟩ := changePosition_accounts h
  have hend : s'.tickAt id t = s₂.tickAt id t := Store.tickAt_congr (hrest.ticks id) t
  obtain ⟨hfirst, hfirstSame, hpools⟩ := changeTick_restaked id t hlower
  obtain ⟨hsecond, hsecondSame, -⟩ := changeTick_restaked id t hupper
  rw [Store.Restaked, Store.inactiveAt, hend]
  by_cases hat : position.key.lower = t
  · -- only the lower boundary can be the tick
    rw [hsecondSame fun heq => Int.ne_of_lt hordered (congrArg Bounded.val (hat.trans heq.2.symm))]
    exact hfirst
  · rw [Store.Restaked, Store.createdOf, Store.inactiveAt, Store.inactiveAt,
      hfirstSame fun heq => hat heq.2, hpools] at hsecond
    exact hsecond

/-- **A deposit** stamps a tick only before anything references it. -/
theorem deposit_restaked {c : Config} {d : Deposit} {r : Receipt}
    (h : (deposit now c d).run s = (.ok r, s')) : s.Restaked s' now id t := by
  obtain ⟨found, p, s₁, position, hfound, hrange, -, hpriced, -, htarget, hchange⟩ :=
    deposit_eq_ok_iff.1 h
  have hordered := (Pool.checkRange_eq_ok_iff.1 hrange).2.2.2.1
  have hticks : s₁.tickAt id t = s.tickAt id t :=
    Store.tickAt_congr ((hpriced.keepsIncentives hfound).ticks id) t
  obtain hsame | ⟨created, hcreated, hinactive⟩ :=
    changePosition_restaked id t (by rwa [htarget.key_eq]) hchange
  · exact .inl (hsame.trans hticks)
  · -- taking its first price, a pool does not become younger
    obtain ⟨q, hq, rfl⟩ := Option.map_eq_some_iff.1 hcreated
    obtain ⟨q₀, hq₀, heq⟩ := hpriced.pool hfound hq
    refine .inr ⟨q.created, ?_, ?_⟩
    · rw [Store.createdOf, hq₀, Option.map_some, heq]
    · rw [hinactive, hticks, Store.inactiveAt, hticks, Store.inactiveAt]

/-- **A withdrawal** keeps the time that a tick with liquidity holds. -/
theorem withdraw_restaked {c : Config} {w : Withdrawal} {out : Amount × Amount}
    (h : (withdraw now c w).run s = (.ok out, s')) : s.Restaked s' now id t := by
  obtain ⟨p, position, amounts, -, hrange, hposition, -, -, -, -, hchange, -, -⟩ :=
    withdraw_eq_ok_iff.1 h
  have hkey : position.key = w.key := Table.key_of_get? hposition
  have hordered : position.key.lower < position.key.upper := by
    rw [hkey]
    exact (Pool.checkRange_eq_ok_iff.1 hrange).2.2.2.1
  exact changePosition_restaked id t hordered hchange

/-- A crossing leaves the other ticks. -/
theorem crossTick_restaked {mode : InactiveMode} {id' : PoolId} {t' : Tick} {net : Dec}
    (h : (crossTick now mode id' t').run s = (.ok net, s')) (hne : ¬(id' = id ∧ t' = t)) :
    s.Restaked s' now id t := by
  obtain ⟨p, after, p', -, -, -, hticks, -⟩ := crossTick_accounts h
  exact .inl ((Store.tickAt_congr (hticks id) t).trans
    ((Store.tickAt_setTick _ _ _ _ _).trans (if_neg hne)))

/-- **A new incentive** keeps all ticks. -/
theorem addIncentive_restaked {id' : PoolId} {incentive : IncentiveId}
    (h : (addIncentive id' incentive).run s = (.ok (), s')) : s.Restaked s' now id t :=
  Store.restaked_of_ticks (addIncentive_accounts h).1

end Operation

/-! ### What a step does -/

namespace Step

variable {x : Step} {l : Ledger} {id : PoolId} {t : Tick}

/-- **Between crossings** of a tick, and unless it is overwritten, a step leaves the tick or keeps
the time that it holds, and may stamp it before if nothing references it. -/
theorem restaked (hcross : ¬x.Crosses id t l) (hraw : ¬x.Overwrites id t) :
    l.store.Restaked (x.apply l).store l.clock.now id t := by
  cases x with
  | action a =>
    cases a with
    | request r =>
      rw [apply, Action.apply]
      rcases hrun : r.call.run l with ⟨e | a, l'⟩
      · rw [(Request.refused_by hrun).1]
        exact .inl rfl
      · obtain ⟨hsettled, -⟩ := Request.settled hrun
        cases r with
        | deposit d => exact Operation.deposit_restaked hsettled
        | withdraw w => exact Operation.withdraw_restaked hsettled
        | crossTick id' t' =>
          exact Operation.crossTick_restaked hsettled fun hat =>
            hcross ⟨hat.1, hat.2, a, l', hrun⟩
        | addIncentive id' incentive => exact Operation.addIncentive_restaked hsettled
        | changeTick id' t' edge delta ids => exact (Operation.changeTick_restaked id t hsettled).1
    | setTick id' t' state => exact .inl ((Store.tickAt_setTick _ _ _ _ _).trans (if_neg hraw))
    | setTime time => exact .inl rfl
  | reprice id' tick sqrtPrice liquidity =>
    obtain heq | ⟨p, -, heq⟩ := reprice_cases id' tick sqrtPrice liquidity l
    · rw [heq]
      exact .inl rfl
    · rw [heq]
      exact .inl rfl

/-- A pool stays as old as it is. -/
theorem createdOf_apply (x : Step) {created : Timestamp}
    (hcreated : l.store.createdOf id = some created) :
    (x.apply l).store.createdOf id = some created := by
  cases x with
  | action a => exact (a.continues l).createdOf_eq hcreated
  | reprice id' tick sqrtPrice liquidity =>
    obtain heq | ⟨p, hp, heq⟩ := reprice_cases id' tick sqrtPrice liquidity l
    · rw [heq, hcreated]
    · obtain rfl : p.id = id' := Table.key_of_get? hp
      rw [heq, Store.createdOf, Store.get?_setPool]
      split
      next hid =>
        rw [← hid, Store.createdOf, hp] at hcreated
        exact hcreated
      next => exact hcreated

end Step

namespace Ledger

variable {l l' : Ledger} {id : PoolId} {t : Tick} {steps : List Step}

/-! ### Ages -/

/-- A pool keeps the time of its creation, through all steps. -/
theorem createdOf_afterSteps {created : Timestamp} (h : l.store.createdOf id = some created)
    (steps : List Step) : (l.afterSteps steps).store.createdOf id = some created := by
  induction steps generalizing l with
  | nil => exact h
  | cons x rest ih => exact ih (x.createdOf_apply h)

/-- The age of a pool; none if it is not there. -/
def age (l : Ledger) (id : PoolId) : Duration :=
  ((l.store.createdOf id).map l.clock.now.since).getD Duration.zero

/-- The time that passes for a pool between two moments. -/
def elapsed (id : PoolId) (k m : Ledger) : Int := (m.age id).val - (k.age id).val

/-- The age of a pool is counted from its creation. -/
theorem age_eq {created : Timestamp} (h : l.store.createdOf id = some created) :
    l.age id = l.clock.now.since created := by
  rw [age, h, Option.map_some, Option.getD_some]

/-- For a pool that was created before, as much time passes as on the clock. -/
theorem elapsed_eq_clock {k m : Ledger} {created : Timestamp}
    (hk : k.store.createdOf id = some created) (hm : m.store.createdOf id = some created)
    (hbefore : created.nanos ≤ k.clock.now.nanos)
    (hforward : k.clock.now.nanos ≤ m.clock.now.nanos) :
    elapsed id k m = m.clock.now.nanos.val - k.clock.now.nanos.val := by
  rw [elapsed, age_eq hk, age_eq hm]
  simp only [Bounded.le_def] at hbefore hforward
  simp only [Timestamp.since]
  omega

/-- **A crossing** refreshes the time that the tick holds, from the age of the pool. -/
theorem inactiveAt_of_crossTick {net : Dec} (h : (crossTick id t).run l = (.ok net, l')) :
    l'.store.inactiveAt id t =
        l.config.inactiveMode.refresh (l.age id) (l.store.inactiveAt id t) ∧
      l'.clock = l.clock ∧ l'.age id = l.age id := by
  obtain ⟨s, metrics, hrun, rfl⟩ := crossTick_eq_ok h
  obtain ⟨p, after, p', hp, hafter, hp', hticks, hpools⟩ := Operation.crossTick_accounts hrun
  have hcreated : l.store.createdOf id = some p.created := by
    rw [Store.createdOf, hp, Option.map_some]
  have hcreated' := (Operation.crossTick_continues hrun).createdOf_eq hcreated
  refine ⟨?_, rfl, (age_eq hcreated').trans (age_eq hcreated).symm⟩
  rw [Store.inactiveAt, Store.tickAt_congr (hticks id), Store.tickAt_setTick, if_pos ⟨rfl, rfl⟩,
    TickState.inactive_cross hafter, age_eq hcreated, Store.inactiveAt]

/-! ### A tick with liquidity -/

/-- The tick has liquidity after each of some steps, and the clock does not go back. -/
def Held (id : PoolId) (t : Tick) : Ledger → List Step → Prop
  | _, [] => True
  | l, x :: rest => ((x.apply l).store.Staked id t ∧
      l.clock.now.nanos ≤ (x.apply l).clock.now.nanos) ∧ Held id t (x.apply l) rest

instance decidableHeld : (l : Ledger) → (steps : List Step) → Decidable (Held id t l steps)
  | _, [] => .isTrue trivial
  | l, x :: rest =>
    haveI := decidableHeld (x.apply l) rest
    inferInstanceAs (Decidable (_ ∧ _))

/-- No crossing of a tick is accepted among some steps. -/
def Quiet (id : PoolId) (t : Tick) : Ledger → List Step → Prop
  | _, [] => True
  | l, x :: rest => ¬x.Crosses id t l ∧ Quiet id t (x.apply l) rest

/-- A tick is held through steps and more steps just if it is held through each of the two. -/
theorem held_append {steps' : List Step} :
    Held id t l (steps ++ steps') ↔ Held id t l steps ∧ Held id t (l.afterSteps steps) steps' := by
  induction steps generalizing l with
  | nil => exact (and_iff_right trivial).symm
  | cons x rest ih =>
    rw [List.cons_append, Held, Held, ih, afterSteps_cons]
    exact and_assoc.symm

/-- While a tick is held the clock goes forward. -/
theorem Held.forward (h : Held id t l steps) :
    l.clock.now.nanos ≤ (l.afterSteps steps).clock.now.nanos := by
  induction steps generalizing l with
  | nil => exact Int.le_refl _
  | cons x rest ih => exact Int.le_trans h.1.2 (ih h.2)

/-- **Between crossings** a tick with liquidity holds the same time. -/
theorem inactiveAt_after_quiet (hl : l.store.Staked id t) (hheld : Held id t l steps)
    (hraw : ∀ x ∈ steps, ¬x.Overwrites id t) (hquiet : Quiet id t l steps) :
    (l.afterSteps steps).store.inactiveAt id t = l.store.inactiveAt id t := by
  induction steps generalizing l with
  | nil => rfl
  | cons x rest ih =>
    obtain ⟨hfirst, hraw⟩ := List.forall_mem_cons.1 hraw
    rw [afterSteps_cons, ih hheld.1.1 hheld.2 hraw hquiet.2,
      (Step.restaked hquiet.1 hfirst).inactiveAt_eq hl]

/-- **A tick never holds more time than its pool is old**: one step. -/
theorem inactiveAt_le_apply {x : Step} {created : Timestamp}
    (hmode : l.config.inactiveMode = .sinceLastCross)
    (hcreated : l.store.createdOf id = some created) (hl : l.store.Staked id t)
    (hraw : ¬x.Overwrites id t) (hforward : l.clock.now.nanos ≤ (x.apply l).clock.now.nanos)
    (hle : l.store.inactiveAt id t ≤ l.age id) :
    (x.apply l).store.inactiveAt id t ≤ (x.apply l).age id := by
  by_cases hcross : x.Crosses id t l
  · obtain ⟨net, hrun⟩ := Step.apply_of_crosses hcross
    obtain ⟨hinactive, -, hage⟩ := inactiveAt_of_crossTick hrun
    have hlow := (l.store.inactiveAt id t).lo_le
    have hhigh := (l.age id).lo_le
    rw [hinactive, hage, hmode, Bounded.le_def]
    simp only [InactiveMode.refresh, Duration.monus]
    omega
  · rw [(Step.restaked hcross hraw).inactiveAt_eq hl, age_eq (x.createdOf_apply hcreated)]
    rw [age_eq hcreated] at hle
    exact Int.le_trans hle (Timestamp.since_le hforward)

/-- **A tick never holds more time than its pool is old**, through all steps. -/
theorem inactiveAt_le_after {created : Timestamp}
    (hmode : l.config.inactiveMode = .sinceLastCross)
    (hcreated : l.store.createdOf id = some created) (hl : l.store.Staked id t)
    (hheld : Held id t l steps) (hraw : ∀ x ∈ steps, ¬x.Overwrites id t)
    (hle : l.store.inactiveAt id t ≤ l.age id) :
    (l.afterSteps steps).store.inactiveAt id t ≤ (l.afterSteps steps).age id := by
  induction steps generalizing l with
  | nil => exact hle
  | cons x rest ih =>
    obtain ⟨⟨hstaked, hforward⟩, hrest⟩ := hheld
    obtain ⟨hfirst, hraw⟩ := List.forall_mem_cons.1 hraw
    exact ih (by rw [(x.clock_config_apply l).1, hmode]) (x.createdOf_apply hcreated) hstaked hrest
      hraw (inactiveAt_le_apply hmode hcreated hl hfirst hforward hle)

/-- **What the first step leaves** that brings liquidity to a tick: the age of the pool. -/
theorem inactiveAt_of_first {x : Step} (hunused : (l.store.tickAt id t).isInactive = true)
    (hraw : ¬x.Overwrites id t) (hstaked : (x.apply l).store.Staked id t) :
    ∃ created, l.store.createdOf id = some created ∧
      (x.apply l).store.inactiveAt id t = l.age id ∧ (x.apply l).age id = l.age id := by
  -- a crossing and the clock bring no liquidity
  have hcross : ¬x.Crosses id t l := fun hcross => by
    obtain ⟨net, hrun⟩ := Step.apply_of_crosses hcross
    obtain ⟨s, metrics, hs, heq⟩ := crossTick_eq_ok hrun
    have hstake := (Operation.crossTick_recrossed hs).1.stakes id t none
    have hused := hstaked.isInactive_eq_false
    rw [heq] at hused
    rw [TickState.isInactive, show (s.tickAt id t).stake = _ from hstake] at hused
    exact Bool.false_ne_true (hused.symm.trans hunused)
  obtain ⟨created, hcreated, hinactive⟩ :=
    (Step.restaked hcross hraw).inactiveAt_of_first hunused hstaked
  have hclock : (x.apply l).clock = l.clock := by
    obtain hclock | ⟨time, rfl⟩ := (x.clock_config_apply l).2
    · exact hclock
    · have hused := hstaked.isInactive_eq_false
      exact absurd (hused.symm.trans hunused) Bool.false_ne_true
  refine ⟨created, hcreated, hinactive.trans (age_eq hcreated).symm, ?_⟩
  rw [age_eq (x.createdOf_apply hcreated), age_eq hcreated, hclock]

/-! ### What crossings leave -/

/-- Nothing is lost at zero, as long as a tick holds no more time than its pool is old. -/
theorem inactiveAt_val_of_crossTick {net : Dec} (hmode : l.config.inactiveMode = .sinceLastCross)
    (hle : l.store.inactiveAt id t ≤ l.age id) (h : (crossTick id t).run l = (.ok net, l')) :
    (l'.store.inactiveAt id t).val = (l.age id).val - (l.store.inactiveAt id t).val := by
  rw [Bounded.le_def] at hle
  rw [(inactiveAt_of_crossTick h).1, hmode]
  simp only [InactiveMode.refresh, Duration.monus]
  omega

/-- From the first liquidity on, a tick never holds more time than its pool is old. -/
theorem inactiveAt_le_of_first {first : Step} (hmode : l.config.inactiveMode = .sinceLastCross)
    (hunused : (l.store.tickAt id t).isInactive = true) (hheld : Held id t l (first :: steps))
    (hraw : ∀ x ∈ first :: steps, ¬x.Overwrites id t) :
    (l.afterSteps (first :: steps)).store.inactiveAt id t ≤
      (l.afterSteps (first :: steps)).age id := by
  obtain ⟨⟨hstaked, -⟩, hrest⟩ := hheld
  obtain ⟨hfirst, hraw⟩ := List.forall_mem_cons.1 hraw
  obtain ⟨created, hcreated, hinactive, hage⟩ := inactiveAt_of_first hunused hfirst hstaked
  have hmode' : (first.apply l).config.inactiveMode = .sinceLastCross := by
    rw [(first.clock_config_apply l).1, hmode]
  have hle : (first.apply l).store.inactiveAt id t ≤ (first.apply l).age id := by
    rw [hinactive, hage]
    exact Int.le_refl _
  rw [afterSteps_cons]
  exact inactiveAt_le_after hmode' (first.createdOf_apply hcreated) hstaked hrest hraw hle

/-- After a crossing with no other one behind it, the next one leaves the time in between and what
the tick held before. -/
theorem inactiveAt_of_next_crossing {first : Step} {before between : List Step} {net' : Dec}
    {m k k' : Ledger} (hmode : l.config.inactiveMode = .sinceLastCross)
    (hunused : (l.store.tickAt id t).isInactive = true)
    (hheld : Held id t l (first :: (before ++ Step.cross id t :: between)))
    (hraw : ∀ x ∈ first :: (before ++ Step.cross id t :: between), ¬x.Overwrites id t)
    (hk : l.afterSteps (first :: before) = k) (hprevious : (crossTick id t).run k = (.ok net', k'))
    (hquiet : Quiet id t k' between)
    (hm : l.afterSteps (first :: (before ++ Step.cross id t :: between)) = m)
    (hleft : (l'.store.inactiveAt id t).val = (m.age id).val - (m.store.inactiveAt id t).val) :
    (l'.store.inactiveAt id t).val = elapsed id k m + (k.store.inactiveAt id t).val := by
  subst hk
  rw [← List.cons_append, held_append] at hheld
  rw [← List.cons_append] at hraw
  obtain ⟨hrawBefore, hrawAfter⟩ := List.forall_mem_append.1 hraw
  obtain ⟨-, hrawBetween⟩ := List.forall_mem_cons.1 hrawAfter
  obtain ⟨hbefore, ⟨hcrossed, -⟩, hbetween⟩ := hheld
  have hk' : (Step.cross id t).apply (l.afterSteps (first :: before)) = k' :=
    congrArg Prod.snd hprevious
  rw [hk'] at hcrossed hbetween
  -- what the previous crossing left is what the tick holds ever since
  have hsince := inactiveAt_after_quiet hcrossed hbetween hrawBetween hquiet
  have hmode' : (l.afterSteps (first :: before)).config.inactiveMode = .sinceLastCross := by
    rw [config_afterSteps, hmode]
  have hprevLeft := inactiveAt_val_of_crossTick hmode'
    (inactiveAt_le_of_first hmode hunused hbefore hrawBefore) hprevious
  rw [← List.cons_append, afterSteps_append, afterSteps_cons, hk'] at hm
  rw [← hm] at hleft ⊢
  rw [hleft, hsince, hprevLeft, elapsed]
  omega

/-- **The time that a crossing leaves**, in the mode since the last crossing. Let a step bring the
first liquidity to a tick, and let the tick keep some during all that follows, without being
overwritten and on a clock that does not go back. Then an accepted crossing leaves the age of the
pool less the time that the tick held. If no crossing was accepted before it, this is the time
since the first liquidity came. Otherwise it is the time since the previous crossing and the time
that the tick held before that. Time is told by the age of the pool, which grows as the clock does
once the pool was created. -/
theorem inactive_since_crossing {first : Step} {net : Dec} {m : Ledger}
    (hmode : l.config.inactiveMode = .sinceLastCross)
    (hunused : (l.store.tickAt id t).isInactive = true) (hheld : Held id t l (first :: steps))
    (hraw : ∀ x ∈ first :: steps, ¬x.Overwrites id t)
    (hm : l.afterSteps (first :: steps) = m) (h : (crossTick id t).run m = (.ok net, l')) :
    (l'.store.inactiveAt id t).val = (m.age id).val - (m.store.inactiveAt id t).val ∧
      (Quiet id t (first.apply l) steps → (l'.store.inactiveAt id t).val = elapsed id l m) ∧
      (∀ before between k net' k', steps = before ++ Step.cross id t :: between →
        l.afterSteps (first :: before) = k → (crossTick id t).run k = (.ok net', k') →
        Quiet id t k' between →
        (l'.store.inactiveAt id t).val = elapsed id k m + (k.store.inactiveAt id t).val) ∧
      ∀ created before rest k, l.store.createdOf id = some created →
        created.nanos ≤ l.clock.now.nanos → first :: steps = before ++ rest →
        l.afterSteps before = k →
        elapsed id k m = m.clock.now.nanos.val - k.clock.now.nanos.val := by
  have hle := inactiveAt_le_of_first hmode hunused hheld hraw
  subst hm
  have hleft := inactiveAt_val_of_crossTick (by rw [config_afterSteps, hmode]) hle h
  refine ⟨hleft, fun hquiet => ?_, ?_, ?_⟩
  · obtain ⟨⟨hstaked, -⟩, hrest⟩ := hheld
    obtain ⟨hfirst, hraw⟩ := List.forall_mem_cons.1 hraw
    obtain ⟨created, -, hinactive, -⟩ := inactiveAt_of_first hunused hfirst hstaked
    rw [hleft, afterSteps_cons, inactiveAt_after_quiet hstaked hrest hraw hquiet, hinactive,
      elapsed]
  · rintro before between k net' k' rfl hk hprevious hquiet
    exact inactiveAt_of_next_crossing hmode hunused hheld hraw hk hprevious hquiet rfl hleft
  · rintro created before rest k hcreated hbefore hsplit rfl
    rw [hsplit, held_append] at hheld
    rw [hsplit, afterSteps_append]
    have hcreatedAt := createdOf_afterSteps hcreated before
    exact elapsed_eq_clock hcreatedAt (createdOf_afterSteps hcreatedAt rest)
      (Int.le_trans hbefore hheld.1.forward) hheld.2.forward

end Ledger

namespace Sample

/-- The small ledger in the mode since the last crossing. The clock stands at fifty seconds. -/
def sinceCross : Ledger :=
  { ledger with
    clock := ⟨time 50⟩
    config := { ledger.config with inactiveMode := .sinceLastCross } }

/-- A position around the price. -/
def around : Step := .action (.request (.deposit (deposit 500 500 (-10) 10)))

/-- The clock is set to a number of seconds. -/
def setClock (seconds : Int) : Step := .action (.setTime (time seconds))

/-- The upper boundary of the position is crossed. -/
def beyond : Step := .cross pool.id (tick 10)

/-- Two crossings, a hundred seconds after the position was made and thirty seconds later. -/
def crossings : List Step := [setClock 150, beyond, setClock 180, beyond]

end Sample

/-- The third crossing of a tick, twenty seconds after the second one, before which the tick held a
hundred seconds. -/
theorem Ledger.inactive_since_crossing_sample :
    ∃ net l', (Ledger.crossTick Sample.pool.id (Sample.tick 10)).run
        (Sample.sinceCross.afterSteps
          (Sample.around :: (Sample.crossings ++ [Sample.setClock 200]))) = (.ok net, l') ∧
      (l'.store.inactiveAt Sample.pool.id (Sample.tick 10)).val = (20 + 100) * 1_000_000_000 := by
  obtain ⟨-, -, net, l', hrun⟩ : Sample.beyond.Crosses Sample.pool.id (Sample.tick 10)
      (Sample.sinceCross.afterSteps
        (Sample.around :: (Sample.crossings ++ [Sample.setClock 200]))) :=
    Step.crosses_of_isSome (by decide +kernel)
  obtain ⟨-, -, net', k', hprevious⟩ : Sample.beyond.Crosses Sample.pool.id (Sample.tick 10)
      (Sample.sinceCross.afterSteps
        [Sample.around, Sample.setClock 150, Sample.beyond, Sample.setClock 180]) :=
    Step.crosses_of_isSome (by decide +kernel)
  obtain ⟨-, -, hlater, hclock⟩ := Ledger.inactive_since_crossing (by rfl) (by decide +kernel)
    (by decide +kernel) (by decide) rfl hrun
  have hleft := hlater [Sample.setClock 150, Sample.beyond, Sample.setClock 180]
    [Sample.setClock 200] _ net' k' rfl rfl hprevious ⟨fun h => h, trivial⟩
  have hgap := hclock Timestamp.zero
    [Sample.around, Sample.setClock 150, Sample.beyond, Sample.setClock 180]
    [Sample.beyond, Sample.setClock 200] _ rfl (by decide) rfl rfl
  refine ⟨net, l', hrun, ?_⟩
  rw [hleft, hgap]
  decide +kernel

namespace Sample

/-- The tick is kept by hand, with some liquidity and no time. -/
def written : Step :=
  .action (.setTick pool.id (tick 10) ⟨⟨Dec.one, Dec.one⟩, Duration.zero, Map.empty⟩)

/-- The clock has not reached the time at which the pool was created. -/
def early : Ledger :=
  { sinceCross with store := Store.ofPools [{ pool with created := time 100 }] }

end Sample

/-- **Crossings that do not leave the time since the previous one**, or since the first deposit. The
second crossing of a tick leaves eighty seconds, thirty seconds after the first one. A hundred
seconds after the first deposit, the first crossing leaves a hundred and fifty if the tick was
overwritten, and fifty if the pool was created half-way. -/
theorem Ledger.inactive_not_gap :
    (Ledger.Held Sample.pool.id (Sample.tick 10) Sample.sinceCross
        (Sample.around :: Sample.crossings) ∧
      Sample.beyond.Crosses Sample.pool.id (Sample.tick 10)
        (Sample.sinceCross.afterSteps [Sample.around, Sample.setClock 150]) ∧
      Sample.beyond.Crosses Sample.pool.id (Sample.tick 10) (Sample.sinceCross.afterSteps
        [Sample.around, Sample.setClock 150, Sample.beyond, Sample.setClock 180]) ∧
      ((Sample.sinceCross.afterSteps (Sample.around :: Sample.crossings)).store.inactiveAt
        Sample.pool.id (Sample.tick 10)).val = 80 * 1_000_000_000 ∧
      (Sample.time 180).nanos.val - (Sample.time 150).nanos.val = 30 * 1_000_000_000) ∧
    (Ledger.Held Sample.pool.id (Sample.tick 10) Sample.sinceCross
        [Sample.around, Sample.written, Sample.setClock 150, Sample.beyond] ∧
      Sample.beyond.Crosses Sample.pool.id (Sample.tick 10)
        (Sample.sinceCross.afterSteps [Sample.around, Sample.written, Sample.setClock 150]) ∧
      ((Sample.sinceCross.afterSteps
        [Sample.around, Sample.written, Sample.setClock 150, Sample.beyond]).store.inactiveAt
          Sample.pool.id (Sample.tick 10)).val = 150 * 1_000_000_000) ∧
    (Ledger.Held Sample.pool.id (Sample.tick 10) Sample.early
        [Sample.around, Sample.setClock 150, Sample.beyond] ∧
      Sample.beyond.Crosses Sample.pool.id (Sample.tick 10)
        (Sample.early.afterSteps [Sample.around, Sample.setClock 150]) ∧
      ((Sample.early.afterSteps
        [Sample.around, Sample.setClock 150, Sample.beyond]).store.inactiveAt
          Sample.pool.id (Sample.tick 10)).val = 50 * 1_000_000_000) := by
  have hcrosses {l : Ledger} (h : ((Ledger.crossTick Sample.pool.id (Sample.tick 10)).run
      l).1.toOption.isSome = true) : Sample.beyond.Crosses Sample.pool.id (Sample.tick 10) l :=
    Step.crosses_of_isSome h
  refine ⟨⟨?_, hcrosses ?_, hcrosses ?_, ?_, ?_⟩, ⟨?_, hcrosses ?_, ?_⟩, ⟨?_, hcrosses ?_, ?_⟩⟩ <;>
    decide +kernel

end RangeLedger
