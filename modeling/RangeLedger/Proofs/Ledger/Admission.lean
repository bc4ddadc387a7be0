import RangeLedger.Proofs.Ledger.Crossings
import RangeLedger.Proofs.Operation.Pools
import RangeLedger.Proofs.Tick.Prices

/-!
# What positions are filed under

A deposit is accepted only if its pool admits what it asks for: a range within the bounds of the
configuration and on the grid of the pool, and incentives that run there. The position is then filed
under just that, and it stays admitted for as long as it is stored, whatever is called in between: a
pool keeps its spacing and never stops an incentive, and no call changes the configuration.

A spacing may be larger than every tick. Ticks are compared with the largest tick in its place, so
on such a grid there is one tick only that has a price, and no range. A range that was admitted lies
on the grid of the spacing itself.

## Main results

* `Pool.spacing_dvd_of_onGrid`: the boundaries of an admitted range are multiples of the spacing.
* `Store.KeepsTerms`: what pools keep, also when they move to another price.
* `Store.Lasts.after`: what an accepted deposit asks for and pools keep, holds of stored positions.
* `Store.admitted_after`: what stored positions are filed under is admitted.
* `Store.accepts_after`: it would be accepted again.
-/

namespace RangeLedger

/-! ### What a pool keeps admitting -/

namespace Store

variable {s s' : Store}

/-- Every pool is kept with its spacing, and with the incentives that run on it. -/
def KeepsTerms (s s' : Store) : Prop :=
  ∀ id p, s.pools.get? id = some p → ∃ p', s'.pools.get? id = some p' ∧ p'.spacing = p.spacing ∧
    ∀ incentive, p.incentives.contains incentive = true → p'.incentives.contains incentive = true

/-- A pool that is kept in place of one with the same spacing and no more incentives. -/
theorem keepsTerms_setPool {p p' : Pool} (hp : s.pools.get? p'.id = some p)
    (hspacing : p'.spacing = p.spacing)
    (hruns : ∀ incentive, p.incentives.contains incentive = true →
      p'.incentives.contains incentive = true) : s.KeepsTerms (Storage.setPool s p') := by
  intro id q hq
  by_cases hid : p'.id = id
  · obtain rfl : p = q := by
      rw [← hid, hp] at hq
      exact Option.some.inj hq
    exact ⟨p', (get?_setPool _ _ _).trans (if_pos hid), hspacing, hruns⟩
  · exact ⟨q, ((get?_setPool _ _ _).trans (if_neg hid)).trans hq, rfl, fun _ h => h⟩

/-- A pool that continues keeps both. -/
theorem Continues.keepsTerms (h : s.Continues s') : s.KeepsTerms s' := by
  intro id p hp
  obtain ⟨q, hq, hpq⟩ := h id p hp
  exact ⟨q, hq, hpq.spacing, hpq.incentives⟩

end Store

/-! ### What positions are filed under -/

/-- The boundaries of a range that has prices, on the grid of a pool, are multiples of its spacing
itself: a spacing that no tick can be compared with leaves only the tick at price one. -/
theorem Pool.spacing_dvd_of_onGrid {p : Pool} {lower upper : Tick} (hlower : p.OnGrid lower)
    (hupper : p.OnGrid upper) (hlowerBounds : lower.InBounds) (hupperBounds : upper.InBounds)
    (hordered : lower < upper) :
    p.spacing.val ≠ 0 ∧ p.spacing.val ∣ lower.val ∧ p.spacing.val ∣ upper.val := by
  obtain ⟨hstep, hlower⟩ := hlower
  obtain ⟨-, hupper⟩ := hupper
  have hnonneg := p.spacing.lo_le
  have heq : p.tickStep = p.spacing.val := by
    -- on a grid that is wider than the ticks that have prices, only zero has one
    have hzero {t : Tick} (ht : t.InBounds) (hdvd : p.tickStep ∣ t.val)
        (hwide : 887272 < p.tickStep) : t.val = 0 := by
      refine Int.eq_zero_of_dvd_of_natAbs_lt_natAbs hdvd ?_
      obtain ⟨hlow, hhigh⟩ := ht
      simp only [Bounded.le_def, Tick.lowest, Tick.highest] at hlow hhigh
      omega
    by_contra hne
    rw [Pool.tickStep] at hne
    have hwide : 887272 < p.tickStep := by
      rw [Pool.tickStep]
      omega
    have h0 := hzero hlowerBounds hlower hwide
    have h1 := hzero hupperBounds hupper hwide
    rw [Bounded.lt_def] at hordered
    omega
  rw [heq] at hstep hlower hupper
  exact ⟨hstep, hlower, hupper⟩

/-- Which ranges a pool admits depends on its spacing alone. -/
theorem Pool.checkRange_of_spacing {p p' : Pool} (h : p'.spacing = p.spacing) {c : Config}
    {lower upper : Tick} (hrange : p.checkRange c lower upper = .ok ()) :
    p'.checkRange c lower upper = .ok () := by
  rw [checkRange_eq_ok_iff] at hrange ⊢
  simpa only [OnGrid, tickStep, h] using hrange

namespace Store

variable {s s' : Store} {c : Config} {key : PositionKey} {ids : OrderedSet IncentiveId}

/-- What a position may be filed under: a range within the configured bounds and on the grid of its
pool, and incentives that run on the pool, which the key tells of. -/
structure Admitted (s : Store) (c : Config) (key : PositionKey) (ids : OrderedSet IncentiveId) :
    Prop where
  min_le : c.minTick ≤ key.lower
  ordered : key.lower < key.upper
  le_max : key.upper ≤ c.maxTick
  incentivized : key.incentivized = !ids.isEmpty
  pool : ∃ p, s.pools.get? key.pool = some p ∧ p.spacing.val ≠ 0 ∧
    p.spacing.val ∣ key.lower.val ∧ p.spacing.val ∣ key.upper.val ∧
    ∀ id ∈ ids.toList, p.incentives.contains id = true

/-- What a pool admits it still admits while it keeps its terms. -/
theorem Admitted.of_keepsTerms (h : s.Admitted c key ids) (hs : s.KeepsTerms s') :
    s'.Admitted c key ids := by
  obtain ⟨p, hp, hne, hlower, hupper, hruns⟩ := h.pool
  obtain ⟨p', hp', hspacing, hkeeps⟩ := hs key.pool p hp
  refine ⟨h.min_le, h.ordered, h.le_max, h.incentivized, p', hp', ?_⟩
  rw [hspacing]
  exact ⟨hne, hlower, hupper, fun id hid => hkeeps id (hruns id hid)⟩

/-- Every stored position is filed under something admitted. -/
def AllAdmitted (s : Store) (c : Config) : Prop :=
  ∀ key position, s.positions.get? key = some position → s.Admitted c key position.incentives

/-- What an accepted deposit asks for is admitted. -/
theorem admitted_of_deposit {now : Timestamp} {d : Deposit} {r : Receipt}
    (h : (Operation.deposit now c d).run s = (.ok r, s')) : s.Admitted c d.key d.incentives := by
  obtain ⟨found, p, s₁, position, hfound, hrange, hids, -, hquote, -, -⟩ :=
    Operation.deposit_eq_ok_iff.1 h
  obtain ⟨hlower, hupper, hmin, hordered, hmax⟩ := Pool.checkRange_eq_ok_iff.1 hrange
  obtain ⟨_, _, _, hsqrtLower, hsqrtUpper, -⟩ := Operation.quote_eq_ok_iff.1 hquote
  obtain ⟨hne, hlower, hupper⟩ := Pool.spacing_dvd_of_onGrid hlower hupper
    (Tick.sqrtPrice_eq_ok_iff.1 hsqrtLower).1 (Tick.sqrtPrice_eq_ok_iff.1 hsqrtUpper).1 hordered
  exact ⟨hmin, hordered, hmax, rfl, found, hfound, hne, hlower, hupper,
    Pool.checkIncentives_eq_ok_iff.1 hids⟩

end Store

/-! ### What stays true of stored positions -/

namespace Store

/-- A property of what positions are filed under that lasts: what accepted deposits ask for has it,
and it needs nothing of pools but what they keep. -/
structure Lasts (c : Config) (kind : Store → PositionKey → OrderedSet IncentiveId → Prop) :
    Prop where
  deposited : ∀ s s' now d r, (Operation.deposit now c d).run s = (.ok r, s') →
    kind s d.key d.incentives
  keeps : ∀ s s' key ids, s.KeepsTerms s' → kind s key ids → kind s' key ids

variable {s s' : Store} {c : Config} {key : PositionKey}

/-- A position that is stored after a change of some position is that one, with its incentives, or
was stored before. -/
theorem Repositioned.stored_cases {position : Position} {delta : Dec}
    (h : s.Repositioned position delta s') {stored : Position}
    (hstored : s'.positions.get? key = some stored) :
    (position.key = key ∧ stored.incentives = position.incentives) ∨
      (position.key ≠ key ∧ s.positions.get? key = some stored) := by
  obtain ⟨liquidity, -, -, hpositions⟩ := h.liquidity
  rw [hpositions] at hstored
  by_cases hkey : position.key = key
  · rw [if_pos hkey] at hstored
    split at hstored
    next => cases hstored
    next =>
      cases hstored
      exact .inl ⟨hkey, rfl⟩
  · rw [if_neg hkey] at hstored
    exact .inr ⟨hkey, hstored⟩

section

variable {kind : Store → PositionKey → OrderedSet IncentiveId → Prop} (hkind : Lasts c kind)
  (h : ∀ key position, s.positions.get? key = some position → kind s key position.incentives)

include hkind h

/-- A change of other things than positions keeps the property. -/
theorem Lasts.of_keepsTerms (hs : s.KeepsTerms s') (hpositions : s'.positions = s.positions) :
    ∀ key position, s'.positions.get? key = some position →
      kind s' key position.incentives := by
  intro key position hposition
  rw [hpositions] at hposition
  exact hkind.keeps _ _ _ _ hs (h key position hposition)

/-- **One step**: a change of a position keeps the property, if what it is filed under has it. -/
theorem Lasts.of_repositioned {position : Position} {delta : Dec}
    (hposition : kind s position.key position.incentives) (hs : s.Repositioned position delta s') :
    ∀ key position, s'.positions.get? key = some position →
      kind s' key position.incentives := by
  intro key stored hstored
  obtain ⟨rfl, hids⟩ | ⟨-, hbefore⟩ := hs.stored_cases hstored
  · rw [hids]
    exact hkind.keeps _ _ _ _ hs.continues.keepsTerms hposition
  · exact hkind.keeps _ _ _ _ hs.continues.keepsTerms (h key stored hbefore)

/-- **A deposit** keeps the property, if it has it itself. -/
theorem Lasts.of_deposit {now : Timestamp} {d : Deposit} {r : Receipt}
    (hrun : (Operation.deposit now c d).run s = (.ok r, s')) :
    ∀ key position, s'.positions.get? key = some position →
      kind s' key position.incentives := by
  obtain ⟨found, p, s₁, position, hfound, -, hpriced, -, hkey, hids, -, hs⟩ :=
    Operation.deposit_effect hrun
  have hterms := (hpriced.continues hfound).keepsTerms
  refine hkind.of_repositioned (hkind.of_keepsTerms h hterms hpriced.positions_eq) ?_ hs
  rw [hkey, hids]
  exact hkind.keeps _ _ _ _ hterms (hkind.deposited _ _ _ _ _ hrun)

/-- **A withdrawal** keeps the property. -/
theorem Lasts.of_withdraw {now : Timestamp} {w : Withdrawal} {out : Amount × Amount}
    (hrun : (Operation.withdraw now c w).run s = (.ok out, s')) :
    ∀ key position, s'.positions.get? key = some position →
      kind s' key position.incentives := by
  obtain ⟨_, position, _, -, -, -, hstored, -, -, -, -, -, hs⟩ := Operation.withdraw_effect hrun
  exact hkind.of_repositioned h (h _ position hstored) hs

end

/-- **What lasts holds of all stored positions** after every run. -/
theorem Lasts.after {l : Ledger} {kind : Store → PositionKey → OrderedSet IncentiveId → Prop}
    (hkind : Lasts l.config kind) (hl : l.store.IsFresh) (events : List Event) :
    ∀ key position, (l.after events).store.positions.get? key = some position →
      kind (l.after events).store key position.incentives := by
  have hstart : ∀ key position, l.store.positions.get? key = some position →
      kind l.store key position.incentives := by
    intro key position hposition
    rw [hl.positions] at hposition
    cases hposition
  refine Ledger.store_after_steps (fun s => ∀ key position,
    s.positions.get? key = some position → kind s key position.incentives)
    (fun _ _ _ _ _ hrun h => hkind.of_deposit h hrun)
    (fun _ _ _ _ _ hrun h => hkind.of_withdraw h hrun)
    (fun _ _ _ _ _ _ hrun h => hkind.of_keepsTerms h (Operation.crossTick_continues hrun).keepsTerms
      (Operation.crossTick_recrossed hrun).1.positions)
    (fun _ _ _ _ hrun h => hkind.of_keepsTerms h (Operation.addIncentive_continues hrun).keepsTerms
      (Operation.addIncentive_recrossed hrun).positions)
    (fun _ _ _ _ _ hp h => hkind.of_keepsTerms h (keepsTerms_setPool hp rfl fun _ hi => hi) rfl)
    hstart events

/-- **What stored positions are filed under is admitted** after every run, under the configuration
of the ledger. -/
theorem admitted_after {l : Ledger} (hl : l.store.IsFresh) (events : List Event) :
    (l.after events).store.AllAdmitted l.config :=
  Lasts.after ⟨fun _ _ _ _ _ hrun => admitted_of_deposit hrun,
    fun _ _ _ _ hs h => Admitted.of_keepsTerms h hs⟩ hl events

/-- The pool that a position is filed under accepts its range and its incentives. -/
def Accepts (c : Config) (s : Store) (key : PositionKey) (ids : OrderedSet IncentiveId) : Prop :=
  ∃ p, s.pools.get? key.pool = some p ∧ p.checkRange c key.lower key.upper = .ok () ∧
    p.checkIncentives ids = .ok ()

/-- **What stored positions are filed under is accepted again** after every run. -/
theorem accepts_after {l : Ledger} (hl : l.store.IsFresh) (events : List Event) {key : PositionKey}
    {position : Position} (hposition : (l.after events).store.positions.get? key = some position) :
    Accepts l.config (l.after events).store key position.incentives := by
  have hlasts : Lasts l.config (Accepts l.config) := by
    refine ⟨fun s s' now d r hrun => ?_, fun s s' key ids hs h => ?_⟩
    · obtain ⟨found, -, -, -, hfound, hrange, hids, -⟩ := Operation.deposit_eq_ok_iff.1 hrun
      exact ⟨found, hfound, hrange, hids⟩
    · obtain ⟨p, hp, hrange, hids⟩ := h
      obtain ⟨p', hp', hspacing, hkeeps⟩ := hs key.pool p hp
      exact ⟨p', hp', Pool.checkRange_of_spacing hspacing hrange,
        Pool.checkIncentives_eq_ok_iff.2 fun id hid =>
          hkeeps id (Pool.checkIncentives_eq_ok_iff.1 hids id hid)⟩
  exact hlasts.after hl events key position hposition

end Store

end RangeLedger
