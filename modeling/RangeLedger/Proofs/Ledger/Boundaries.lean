import RangeLedger.Proofs.Ledger.Crossings

/-!
# What ticks say of positions

The ledger never adds up positions: it keeps at each tick the gross and the net liquidity of the
positions that end there, for the tick as a whole and for each incentive, and changes them with
every change of a position. Here these running sums are shown to be the sums over the stored
positions, in every state that calls and moves of the price can lead to.

The invariant is `Store.TicksMatch`. It speaks of all scopes at once, so one argument serves the
tick as a whole and the records of incentives. A change of a position adds the same liquidity to
both sides; since a range ends above where it begins, no position counts twice at one tick.

## Main results

* `Store.ticksMatch_after`: the invariant holds after every run.
* `Ledger.tickState_eq_sums`: what the ledger answers for a tick are the sums over the positions
  that end there.
-/

namespace RangeLedger

namespace Store

/-- Positions of a pool that begin at a tick and count in a scope. -/
def BeginsAt (id : PoolId) (t : Tick) (scope : Scope) (key : PositionKey)
    (ids : OrderedSet IncentiveId) : Prop :=
  key.pool = id ∧ key.lower = t ∧ scope.Counts ids

/-- Positions of a pool that end at a tick and count in a scope. -/
def EndsAt (id : PoolId) (t : Tick) (scope : Scope) (key : PositionKey)
    (ids : OrderedSet IncentiveId) : Prop :=
  key.pool = id ∧ key.upper = t ∧ scope.Counts ids

/-- Positions of a pool that begin or end at a tick and count in a scope. -/
def Touches (id : PoolId) (t : Tick) (scope : Scope) (key : PositionKey)
    (ids : OrderedSet IncentiveId) : Prop :=
  key.pool = id ∧ (key.lower = t ∨ key.upper = t) ∧ scope.Counts ids

section

variable (id : PoolId) (t : Tick) (scope : Scope) (key : PositionKey) (ids : OrderedSet IncentiveId)

instance : Decidable (BeginsAt id t scope key ids) :=
  inferInstanceAs (Decidable (key.pool = id ∧ key.lower = t ∧ scope.Counts ids))

instance : Decidable (EndsAt id t scope key ids) :=
  inferInstanceAs (Decidable (key.pool = id ∧ key.upper = t ∧ scope.Counts ids))

instance : Decidable (Touches id t scope key ids) :=
  inferInstanceAs (Decidable (key.pool = id ∧ (key.lower = t ∨ key.upper = t) ∧
    scope.Counts ids))

end

/-- What begins or ends at a tick is a part of what touches it. -/
theorem PositionsHold.touching {s : Store} (h : s.PositionsHold) (id : PoolId) (t : Tick)
    (scope : Scope) :
    0 ≤ s.liquidityOf (BeginsAt id t scope) ∧ 0 ≤ s.liquidityOf (EndsAt id t scope) ∧
      s.liquidityOf (BeginsAt id t scope) ≤ s.liquidityOf (Touches id t scope) ∧
      s.liquidityOf (EndsAt id t scope) ≤ s.liquidityOf (Touches id t scope) :=
  ⟨liquidityOf_nonneg h _, liquidityOf_nonneg h _,
    liquidityOf_mono h fun _ _ ⟨hid, ht, hscope⟩ => ⟨hid, .inl ht, hscope⟩,
    liquidityOf_mono h fun _ _ ⟨hid, ht, hscope⟩ => ⟨hid, .inr ht, hscope⟩⟩

/-- The stakes of a tick are the sums over the positions that touch it. -/
structure TickMatches (s : Store) (id : PoolId) (t : Tick) : Prop where
  gross : ∀ scope,
    ((s.tickAt id t).stakeFor scope).gross.raw = s.liquidityOf (Touches id t scope)
  net : ∀ scope, ((s.tickAt id t).stakeFor scope).net.raw =
    s.liquidityOf (BeginsAt id t scope) - s.liquidityOf (EndsAt id t scope)

/-- The stakes of every tick are the sums over the positions that touch it. -/
structure TicksMatch (s : Store) : Prop where
  gross : ∀ id t scope,
    ((s.tickAt id t).stakeFor scope).gross.raw = s.liquidityOf (Touches id t scope)
  net : ∀ id t scope, ((s.tickAt id t).stakeFor scope).net.raw =
    s.liquidityOf (BeginsAt id t scope) - s.liquidityOf (EndsAt id t scope)

variable {s s' : Store}

/-- All ticks match just if each of them does. -/
theorem ticksMatch_iff : s.TicksMatch ↔ ∀ id t, s.TickMatches id t :=
  ⟨fun h id t => ⟨h.gross id t, h.net id t⟩,
    fun h => ⟨fun id t => (h id t).gross, fun id t => (h id t).net⟩⟩

/-- In a fresh store nothing touches any tick. -/
theorem IsFresh.tickMatches (h : s.IsFresh) (id : PoolId) (t : Tick) : s.TickMatches id t := by
  have hzero (kind : PositionKey → OrderedSet IncentiveId → Prop)
      [∀ key ids, Decidable (kind key ids)] : s.liquidityOf kind = 0 := h.total_eq _
  refine ⟨fun scope => ?_, fun scope => ?_⟩
  · rw [h.tickAt_eq, TickState.stakeFor_zero, hzero]
    rfl
  · rw [h.tickAt_eq, TickState.stakeFor_zero, hzero, hzero]
    rfl

namespace TickMatches

variable {id : PoolId} {t : Tick}

/-- A tick matches as long as neither its stakes nor the positions change. -/
theorem of_stakes (h : s.TickMatches id t) (hpositions : s'.positions = s.positions)
    (hstakes : ∀ scope, (s'.tickAt id t).stakeFor scope = (s.tickAt id t).stakeFor scope) :
    s'.TickMatches id t := by
  refine ⟨fun scope => ?_, fun scope => ?_⟩
  · rw [hstakes, liquidityOf_congr hpositions, h.gross]
  · rw [hstakes, liquidityOf_congr hpositions, liquidityOf_congr hpositions, h.net]

/-- Crossings keep every stake, and all positions. -/
theorem of_recrossed (h : s.TickMatches id t) (hs : s.Recrossed s') : s'.TickMatches id t :=
  h.of_stakes hs.positions (hs.stakes id t)

/-- **One step**: a change of a position keeps a tick and the positions in agreement. -/
theorem of_repositioned (h : s.TickMatches id t) {position : Position} {delta : Dec}
    (htarget : s.Target position.key position.incentives position)
    (hordered : position.key.lower < position.key.upper)
    (hs : s.Repositioned position delta s') : s'.TickMatches id t := by
  have hsum := hs.liquidityOf_eq htarget
  have hne : position.key.lower ≠ position.key.upper := fun heq =>
    absurd hordered (heq ▸ Int.lt_irrefl position.key.lower.val)
  refine ⟨fun scope => ?_, fun scope => ?_⟩
  · rw [hs.gross, h.gross, hsum, Int.add_assoc]
    congr 1
    simp only [Touches]
    -- one of the two boundaries at most lies at the tick
    by_cases hlower : position.key.lower = t
    · have hupper : position.key.upper ≠ t := fun heq => hne (hlower.trans heq.symm)
      simp only [hlower, hupper, true_or, true_and, false_and, and_false, if_false, Int.add_zero]
    · simp only [hlower, false_or, false_and, and_false, if_false, Int.zero_add]
  · rw [hs.net, h.net, hsum, hsum, add_sub_add_comm, Int.add_sub_assoc]
    rfl

/-- A first price is nothing to the ticks. -/
theorem of_pricedAs (h : s.TickMatches id t) {found p : Pool} {amount0 amount1 : Amount}
    (hs : Operation.PricedAs s found amount0 amount1 p s') : s'.TickMatches id t := by
  obtain ⟨-, -, rfl⟩ | ⟨-, -, rfl⟩ := hs
  · exact ⟨h.gross, h.net⟩
  · exact h

/-- **A deposit** keeps every tick matched. -/
theorem of_deposit (h : s.TickMatches id t) {now : Timestamp} {c : Config} {d : Deposit}
    {r : Receipt} (hrun : (Operation.deposit now c d).run s = (.ok r, s')) :
    s'.TickMatches id t := by
  obtain ⟨found, p, s₁, position, -, hordered, hpriced, -, hkey, -, htarget, hs⟩ :=
    Operation.deposit_effect hrun
  refine (h.of_pricedAs hpriced).of_repositioned htarget ?_ hs
  rw [hkey]
  exact hordered

/-- **A withdrawal** keeps every tick matched. -/
theorem of_withdraw (h : s.TickMatches id t) {now : Timestamp} {c : Config} {w : Withdrawal}
    {out : Amount × Amount} (hrun : (Operation.withdraw now c w).run s = (.ok out, s')) :
    s'.TickMatches id t := by
  obtain ⟨p, position, amounts, -, hordered, hkey, hposition, -, -, -, -, -, hs⟩ :=
    Operation.withdraw_effect hrun
  refine h.of_repositioned (.inl ⟨hposition, rfl⟩) ?_ hs
  rw [hkey]
  exact hordered

end TickMatches

/-- **Ticks match positions after every run.** -/
theorem ticksMatch_after {l : Ledger} (hl : l.store.IsFresh) (events : List Event) :
    (l.after events).store.TicksMatch := by
  rw [ticksMatch_iff]
  intro id t
  exact Ledger.store_after_steps (fun s => s.TickMatches id t)
    (fun _ _ _ _ _ hrun h => h.of_deposit hrun) (fun _ _ _ _ _ hrun h => h.of_withdraw hrun)
    (fun _ _ _ _ _ _ hrun h => h.of_recrossed (Operation.crossTick_recrossed hrun).1)
    (fun _ _ _ _ hrun h => h.of_recrossed (Operation.addIncentive_recrossed hrun))
    (fun _ _ _ _ _ _ h => ⟨h.gross, h.net⟩) (hl.tickMatches id t) events

end Store

/-! ### Ticks that nothing touches -/

/-- Whether an event is about a tick: it changes a position that begins or ends there, or crosses
the tick. -/
def Event.Visits (id : PoolId) (t : Tick) : Event → Prop
  | deposit d => d.pool = id ∧ (d.lower = t ∨ d.upper = t)
  | withdraw w => w.pool = id ∧ (w.lower = t ∨ w.upper = t)
  | cross id' t' => id' = id ∧ t' = t
  | _ => False

/-- A tick that no event was about is not kept. -/
theorem Ledger.tick_none_after_calls {l : Ledger} {id : PoolId} {t : Tick}
    (hl : (l.store.ticksOf id).get? t = none) {events : List Event}
    (hevents : ∀ e ∈ events, e.IsCall ∧ ¬e.Visits id t) :
    ((l.after events).store.ticksOf id).get? t = none := by
  refine Ledger.after_invariant (fun l => (l.store.ticksOf id).get? t = none)
    (fun e l he hl => ?_) hl hevents
  obtain ⟨hcall, hvisits⟩ := he
  have heffect := e.effect_apply l
  generalize (e.apply l).store = s, (e.apply l).bank = bank at heffect ⊢
  cases heffect with
  | still => exact hl
  | @deposit d _ _ _ _ hrun =>
    obtain ⟨found, p, s₁, position, -, -, hpriced, -, hkey, -, -, hs⟩ :=
      Operation.deposit_effect hrun
    have hticks : s₁.ticksOf id = l.store.ticksOf id := by
      obtain ⟨-, -, rfl⟩ | ⟨-, -, rfl⟩ := hpriced
      · rfl
      · rfl
    rw [hs.others id t (by rw [hkey]; exact hvisits), hticks]
    exact hl
  | @withdraw w _ _ _ _ hrun =>
    obtain ⟨p, position, amounts, -, -, hkey, -, -, -, -, -, -, hs⟩ :=
      Operation.withdraw_effect hrun
    rw [hs.others id t (by rw [hkey]; exact hvisits)]
    exact hl
  | cross hrun =>
    obtain ⟨p, after, p', -, -, -, -, rfl⟩ := Operation.crossTick_eq_ok_iff.1 hrun
    rw [Store.ticksOf_setPool, Store.get?_setTick_of_not _ _ hvisits]
    exact hl
  | addIncentive hrun =>
    obtain ⟨p, -, rfl⟩ := Operation.addIncentive_eq_ok_iff.1 hrun
    split
    · exact hl
    · exact hl
  | stopped => cases hcall
  | moved => cases hcall

/-! ### What the ledger answers -/

/-- **Ticks tell of positions.** After every run of calls on a fresh ledger, what it answers for a
tick of one of its pools is this. The gross liquidity is that of the stored positions that begin or
end at the tick; the net liquidity is that of the positions that begin there less that of those that
end there; and the record of each incentive, read as zero if there is none, holds the same two sums
over the positions committed to the incentive. A tick that no call was about reads as zero. -/
theorem Ledger.tickState_eq_sums {l : Ledger} (hl : l.store.IsFresh) {events : List Event}
    (hevents : ∀ e ∈ events, e.IsCall) {id : PoolId} {p : Pool}
    (hp : (l.after events).store.pools.get? id = some p) (t : Tick) :
    ∃ state, (Ledger.tickState id t).run (l.after events) = (.ok state, l.after events) ∧
      state.stake.gross.raw = (l.after events).store.liquidityOf (fun key _ =>
        key.pool = id ∧ (key.lower = t ∨ key.upper = t)) ∧
      state.stake.net.raw =
        (l.after events).store.liquidityOf (fun key _ => key.pool = id ∧ key.lower = t) -
          (l.after events).store.liquidityOf (fun key _ => key.pool = id ∧ key.upper = t) ∧
      (∀ incentive,
        (state.stakeOf incentive).gross.raw = (l.after events).store.liquidityOf (fun key ids =>
          key.pool = id ∧ (key.lower = t ∨ key.upper = t) ∧ incentive ∈ ids.toList) ∧
        (state.stakeOf incentive).net.raw =
          (l.after events).store.liquidityOf (fun key ids =>
            key.pool = id ∧ key.lower = t ∧ incentive ∈ ids.toList) -
          (l.after events).store.liquidityOf (fun key ids =>
            key.pool = id ∧ key.upper = t ∧ incentive ∈ ids.toList)) ∧
      ((∀ e ∈ events, ¬e.Visits id t) → state = TickState.zero) := by
  have hmatch := Store.ticksMatch_after hl events
  refine ⟨(l.after events).store.tickAt id t, Ledger.run_tickState hp t, ?_, ?_,
    fun incentive => ⟨?_, ?_⟩, fun huntouched => ?_⟩
  · refine (hmatch.gross id t none).trans (Store.liquidityOf_iff fun key ids => ?_)
    simp only [Store.Touches, Scope.Counts, and_true]
  · refine (hmatch.net id t none).trans (congrArg₂ _ ?_ ?_)
    · refine Store.liquidityOf_iff fun key ids => ?_
      simp only [Store.BeginsAt, Scope.Counts, and_true]
    · refine Store.liquidityOf_iff fun key ids => ?_
      simp only [Store.EndsAt, Scope.Counts, and_true]
  · exact hmatch.gross id t (some incentive)
  · exact hmatch.net id t (some incentive)
  · have hbefore : (l.store.ticksOf id).get? t = none := by
      rw [hl.ticksOf_eq]
      rfl
    have hnone := Ledger.tick_none_after_calls hbefore fun e he =>
      ⟨hevents e he, huntouched e he⟩
    rw [Store.tickAt, hnone]
    rfl

/-- The boundary that two positions share: both count in the gross liquidity, with opposite signs in
the net liquidity. -/
theorem Ledger.tickState_eq_sums_sample :
    ∃ state, (Ledger.tickState Sample.pool.id (Sample.tick 10)).run
        (Sample.ledger.after Sample.neighbours) =
      (.ok state, Sample.ledger.after Sample.neighbours) ∧
      state.stake.gross.raw = 2001100290048004499444690 ∧
      state.stake.net.raw = 500250050007502045448 := by
  have hkept : ((Sample.ledger.after Sample.neighbours).store.pools.get?
      Sample.pool.id).isSome = true := by decide +kernel
  obtain ⟨state, hread, hgross, hnet, -⟩ := Ledger.tickState_eq_sums Sample.ledger_isFresh
    Sample.isCall_neighbours (Option.some_get hkept).symm (Sample.tick 10)
  refine ⟨state, hread, hgross.trans ?_, hnet.trans ?_⟩
  · decide +kernel
  · decide +kernel

end RangeLedger
