import RangeLedger.Proofs.Number.Nearest
import RangeLedger.Proofs.Storage.Totals
import RangeLedger.Proofs.Tick.Stakes

/-!
# Outside values and accumulators

Beside its stake, the record of an incentive at a tick has an outside value. Changes of positions
leave it; a crossing replaces it by the inactive seconds per unit of the liquidity in the record, if
there is liquidity, and adds the new value to the accumulator of the incentive on the pool.

As there are no negative stakes, what is added is not negative. And it covers what the tick then
has: the old value is not needed again.

## Main results

* `TickState.outsideOf_change`: a change of a position keeps every outside value.
* `TickState.outsideOf_cross`: what a crossing makes of an outside value.
* `Pool.get?_accrue`: what a crossing makes of an accumulator.
* `TickState.outsideOf_le_of_cross`: the tick takes no more than the accumulator gains.
-/

namespace RangeLedger

namespace TickState

variable {t t' : TickState}

/-- The outside value in the record of an incentive; a missing record reads as zero. -/
def outsideOf (t : TickState) (id : IncentiveId) : Dec :=
  ((t.incentives.get? id).getD TickIncentive.zero).outside

/-! ### Changes of a position -/

section

variable {edge : Edge} {delta : Dec}

/-- A stamp leaves the records. -/
theorem incentives_stamp (age : Duration) : (t.stamp age).incentives = t.incentives := by
  rw [stamp]
  split
  · rfl
  · rfl

/-- A shift of the stake leaves the records. -/
theorem incentives_shift (h : t.shift edge delta = .ok t') : t'.incentives = t.incentives := by
  obtain ⟨stake, -, h⟩ := bind_eq_ok_iff.1 h
  cases h
  rfl

/-- Records that are started have no outside value, as they had none before they were started. -/
theorem outsideOf_track (ids : List IncentiveId) (id : IncentiveId) :
    (t.track ids).outsideOf id = t.outsideOf id := by
  have hfold (m : Map IncentiveId TickIncentive) :
      (((ids.foldl (fun m id => m.insertNew id TickIncentive.zero) m).get? id).getD
        TickIncentive.zero).outside = ((m.get? id).getD TickIncentive.zero).outside := by
    induction ids generalizing m with
    | nil => rfl
    | cons first rest ih =>
      rw [List.foldl_cons, ih, Map.get?_insertNew]
      split
      next h => rw [h, Option.getD_some]
      next => rfl
  exact hfold t.incentives

/-- A change of one record keeps all outside values and starts no record. -/
theorem outsideOf_shiftIncentive {id : IncentiveId}
    (h : t.shiftIncentive id edge delta = some (.ok t')) (id' : IncentiveId) :
    t'.outsideOf id' = t.outsideOf id' ∧
      t'.incentives.contains id' = t.incentives.contains id' := by
  obtain ⟨record, hrecord, h⟩ := Option.map_eq_some_iff.1 h
  obtain ⟨stake, -, h⟩ := bind_eq_ok_iff.1 h
  cases h
  rw [outsideOf, outsideOf, Map.contains, Map.contains, Map.get?_insert]
  split
  next hid =>
    subst hid
    rw [hrecord]
    exact ⟨rfl, rfl⟩
  next => exact ⟨rfl, rfl⟩

/-- A shift of records leaves the outside values, and which records there are. -/
theorem outsideOf_shiftIncentives {pool : PoolId} {ids : List IncentiveId}
    (h : t.shiftIncentives pool ids edge delta = .ok t') (id : IncentiveId) :
    t'.outsideOf id = t.outsideOf id ∧
      t'.incentives.contains id = t.incentives.contains id := by
  refine foldlM_invariant (fun _ (state : TickState) => state.outsideOf id = t.outsideOf id ∧
    state.incentives.contains id = t.incentives.contains id)
    (fun first _ state next hstate hstep => ?_) ⟨rfl, rfl⟩ h
  split at hstep
  next outcome houtcome =>
    rw [mapError_eq_ok_iff] at hstep
    rw [hstep] at houtcome
    obtain ⟨hvalue, hkept⟩ := outsideOf_shiftIncentive houtcome id
    exact ⟨hvalue.trans hstate.1, hkept.trans hstate.2⟩
  next => cases hstep

/-- **A change of a position keeps every outside value** of a tick, and starts records only for
incentives that run on the pool. -/
theorem outsideOf_change {p : Pool} {now : Timestamp} {ids : OrderedSet IncentiveId}
    (h : t.change p now edge delta ids = .ok t') (id : IncentiveId) :
    t'.outsideOf id = t.outsideOf id ∧
      (t'.incentives.contains id = true ↔
        t.incentives.contains id = true ∨ p.incentives.contains id = true) := by
  obtain ⟨shifted, hshift, h⟩ := bind_eq_ok_iff.1 h
  have hsame := (incentives_shift (mapError_eq_ok_iff.1 hshift)).trans (incentives_stamp _)
  obtain ⟨hvalue, hkept⟩ := outsideOf_shiftIncentives h id
  rw [hvalue, hkept, outsideOf_track, outsideOf, outsideOf, hsame]
  refine ⟨rfl, ?_⟩
  rw [track, Map.contains_foldl_insertNew, hsame, ← Map.contains_iff_mem_keys]

end

/-! ### Crossings -/

/-- A crossing refreshes the records that there are. -/
theorem get?_cross {mode : InactiveMode} {age : Duration} (h : t.cross mode age = .ok t')
    (id : IncentiveId) :
    (t.incentives.get? id = none → t'.incentives.get? id = none) ∧
      ∀ r, t.incentives.get? id = some r → ∃ r', t'.incentives.get? id = some r' ∧
        r.cross (mode.refresh age t.inactive).toDec = .ok r' := by
  obtain ⟨records, hrecords, h⟩ := bind_eq_ok_iff.1 h
  cases h
  constructor
  · intro hnone
    refine (foldlM_invariant (fun rest (m : Map IncentiveId TickIncentive) =>
      (∀ entry ∈ rest, entry ∈ t.incentives.toList) ∧ m.get? id = none)
      (fun entry rest m m' hm hstep => ?_) ⟨fun _ h => h, hnone⟩ hrecords).2
    obtain ⟨refreshed, -, hinsert⟩ := bind_eq_ok_iff.1 hstep
    cases hinsert
    refine ⟨fun e he => hm.1 e (List.mem_cons_of_mem entry he), ?_⟩
    rw [Map.get?_insert_of_ne _ _ fun hid => ?_]
    · exact hm.2
    · have hentry := Map.get?_eq_some_iff_mem.2 (hm.1 entry List.mem_cons_self)
      rw [hid, hnone] at hentry
      cases hentry
  · intro r hr
    -- the record is still to be refreshed, or it has been
    have hdone := (foldlM_invariant (fun rest (m : Map IncentiveId TickIncentive) =>
      (∀ entry ∈ rest, entry ∈ t.incentives.toList) ∧ ((id, r) ∈ rest ∨
        ∃ r', m.get? id = some r' ∧ r.cross (mode.refresh age t.inactive).toDec = .ok r'))
      (fun entry rest m m' hm hstep => ?_)
      ⟨fun _ h => h, .inl (Map.get?_eq_some_iff_mem.1 hr)⟩ hrecords).2
    · exact hdone.resolve_left List.not_mem_nil
    · obtain ⟨refreshed, hrefresh, hinsert⟩ := bind_eq_ok_iff.1 hstep
      cases hinsert
      refine ⟨fun e he => hm.1 e (List.mem_cons_of_mem entry he), ?_⟩
      by_cases hid : entry.1 = id
      · have hentry := Map.get?_eq_some_iff_mem.2 (hm.1 entry List.mem_cons_self)
        rw [hid] at hentry
        obtain rfl : r = entry.2 := Option.some.inj (hr.symm.trans hentry)
        exact .inr ⟨refreshed, by rw [hid, Map.get?_insert_self], hrefresh⟩
      · obtain hleft | ⟨r', hr', hcross⟩ := hm.2
        · refine .inl ((List.mem_cons.1 hleft).resolve_left fun heq => hid ?_)
          rw [← heq]
        · exact .inr ⟨r', by rw [Map.get?_insert_of_ne _ _ hid, hr'], hcross⟩

/-- **What a crossing makes of an outside value**: the inactive seconds per unit of the liquidity in
the record, if there is any, and otherwise it stays. -/
theorem outsideOf_cross {mode : InactiveMode} {age : Duration} (h : t.cross mode age = .ok t')
    (id : IncentiveId) :
    if (t.stakeOf id).gross.isZero then t'.outsideOf id = t.outsideOf id
    else (mode.refresh age t.inactive).toDec.quo (t.stakeOf id).gross = .ok (t'.outsideOf id) := by
  obtain ⟨hnone, hsome⟩ := get?_cross h id
  rw [stakeOf, outsideOf, outsideOf]
  cases hr : t.incentives.get? id with
  | none =>
    rw [hnone hr]
    exact if_pos rfl ▸ rfl
  | some r =>
    obtain ⟨r', hr', hcross⟩ := hsome r hr
    rw [hr', Option.getD_some, Option.getD_some]
    rw [TickIncentive.cross] at hcross
    split at hcross
    next hzero =>
      cases hcross
      rw [if_pos hzero]
    next hzero =>
      obtain ⟨outside, hquo, hcross⟩ := bind_eq_ok_iff.1 hcross
      cases hcross
      rw [if_neg hzero]
      exact hquo

/-- A crossing starts no record and drops none. -/
theorem contains_cross {mode : InactiveMode} {age : Duration} (h : t.cross mode age = .ok t')
    (id : IncentiveId) : t'.incentives.contains id = t.incentives.contains id := by
  obtain ⟨hnone, hsome⟩ := get?_cross h id
  rw [Map.contains, Map.contains]
  cases hr : t.incentives.get? id with
  | none => rw [hnone hr]
  | some r =>
    obtain ⟨r', hr', -⟩ := hsome r hr
    rw [hr']
    rfl

/-- What a crossed tick adds to the accumulator of an incentive. -/
def yieldOf (t : TickState) (id : IncentiveId) : Int :=
  if (t.stakeOf id).gross.isZero then 0 else (t.outsideOf id).raw

end TickState

/-! ### Accumulators -/

namespace Pool

variable {p p' : Pool}

/-- One record adds its outside value to the accumulator of its incentive. -/
theorem get?_accrueOne {id : IncentiveId} {r : TickIncentive} (h : p.accrueOne id r = .ok p')
    (id' : IncentiveId) :
    (p.incentives.get? id' = none → p'.incentives.get? id' = none) ∧
      ∀ accumulator, p.incentives.get? id' = some accumulator →
        ∃ accumulator', p'.incentives.get? id' = some accumulator' ∧
          accumulator'.secondsPerLiquidity.raw = accumulator.secondsPerLiquidity.raw +
            if id = id' then if r.stake.gross.isZero then 0 else r.outside.raw else 0 := by
  rw [accrueOne] at h
  cases hfound : p.incentives.get? id with
  | none =>
    rw [hfound] at h
    cases h
    refine ⟨fun hnone => hnone, fun accumulator hacc => ⟨accumulator, hacc, ?_⟩⟩
    rw [if_neg fun hid => ?_, Int.add_zero]
    rw [hid, hacc] at hfound
    cases hfound
  | some found =>
    rw [hfound] at h
    dsimp only at h
    split at h
    next hzero =>
      cases h
      refine ⟨fun hnone => hnone, fun accumulator hacc => ⟨accumulator, hacc, ?_⟩⟩
      split <;> simp
    next hzero =>
      obtain ⟨total, htotal, h⟩ := bind_eq_ok_iff.1 h
      cases h
      rw [Map.get?_insert]
      by_cases hid : id = id'
      · subst hid
        rw [if_pos rfl, if_pos rfl]
        refine ⟨fun hnone => ?_, fun accumulator hacc => ⟨⟨total⟩, rfl, ?_⟩⟩
        · rw [hnone] at hfound
          cases hfound
        · obtain rfl : found = accumulator := Option.some.inj (hfound.symm.trans hacc)
          rw [if_neg hzero]
          exact Dec.add_eq_ok_iff.1 htotal
      · rw [if_neg hid, if_neg hid]
        exact ⟨fun hnone => hnone, fun accumulator hacc => ⟨accumulator, hacc, by simp⟩⟩

/-- **What a crossing makes of an accumulator**: it gains what the tick yields. -/
theorem get?_accrue {t : TickState} (h : p.accrue t.incentives = .ok p') (id : IncentiveId) :
    (p.incentives.get? id = none → p'.incentives.get? id = none) ∧
      ∀ accumulator, p.incentives.get? id = some accumulator →
        ∃ accumulator', p'.incentives.get? id = some accumulator' ∧
          accumulator'.secondsPerLiquidity.raw =
            accumulator.secondsPerLiquidity.raw + t.yieldOf id := by
  constructor
  · intro hnone
    exact foldlM_invariant (fun _ (q : Pool) => q.incentives.get? id = none)
      (fun _ _ _ _ hq hstep => (get?_accrueOne hstep id).1 hq) hnone h
  · intro accumulator hacc
    -- what one entry contributes, and what all of them do together
    obtain ⟨part, hpart⟩ : ∃ part : IncentiveId × TickIncentive → Int, part = fun entry =>
      if entry.1 = id then if entry.2.stake.gross.isZero then 0 else entry.2.outside.raw else 0 :=
      ⟨_, rfl⟩
    have htotal : (t.incentives.toList.map part).sum = t.yieldOf id := by
      rw [hpart]
      refine (Table.sum_ite_key t.incentives.entries
        (fun entry => if entry.2.stake.gross.isZero then 0 else entry.2.outside.raw) id).trans ?_
      rw [TickState.yieldOf, TickState.stakeOf, TickState.outsideOf, Map.get?]
      cases t.incentives.entries.get? id with
      | none => rfl
      | some entry => rfl
    have hfold := foldlM_invariant (fun rest (q : Pool) => ∃ accumulator',
      q.incentives.get? id = some accumulator' ∧
        accumulator'.secondsPerLiquidity.raw + (rest.map part).sum =
          accumulator.secondsPerLiquidity.raw + (t.incentives.toList.map part).sum)
      (fun entry rest q q' hq hstep => ?_) ⟨accumulator, hacc, rfl⟩ h
    · obtain ⟨accumulator', hacc', hsum⟩ := hfold
      refine ⟨accumulator', hacc', ?_⟩
      rw [htotal, List.map_nil, List.sum_nil] at hsum
      omega
    · obtain ⟨mid, hmid, hsum⟩ := hq
      obtain ⟨next, hnext, hraw⟩ := (get?_accrueOne hstep id).2 mid hmid
      refine ⟨next, hnext, ?_⟩
      rw [List.map_cons, List.sum_cons] at hsum
      have hfirst : part entry = if entry.1 = id then
          if entry.2.stake.gross.isZero then 0 else entry.2.outside.raw else 0 := by rw [hpart]
      omega

/-- Adding to the accumulators stops no incentive. -/
theorem contains_accrue {t : TickState} (h : p.accrue t.incentives = .ok p') {id : IncentiveId}
    (hid : p.incentives.contains id = true) : p'.incentives.contains id = true := by
  obtain ⟨accumulator, hacc⟩ := Option.isSome_iff_exists.1 hid
  obtain ⟨accumulator', hacc', -⟩ := (get?_accrue h id).2 accumulator hacc
  exact Option.isSome_iff_exists.2 ⟨accumulator', hacc'⟩

end Pool

/-! ### Signs -/

namespace TickState

variable {t t' : TickState} {mode : InactiveMode} {age : Duration} {id : IncentiveId}

/-- **A crossing takes no negative values**: time per unit of liquidity is not negative. -/
theorem outsideOf_nonneg_of_cross (h : t.cross mode age = .ok t')
    (hgross : 0 ≤ (t.stakeOf id).gross.raw) (houtside : 0 ≤ (t.outsideOf id).raw) :
    0 ≤ (t'.outsideOf id).raw := by
  have hcross := outsideOf_cross h id
  split at hcross
  · rw [hcross]
    exact houtside
  · have hseconds : 0 ≤ (mode.refresh age t.inactive).toDec.raw := by
      have hlow := (mode.refresh age t.inactive).lo_le
      change 0 ≤ (mode.refresh age t.inactive).val * 1_000_000_000
      omega
    rw [Dec.raw_quo_of_nonneg hseconds hgross hcross]
    exact Int.natCast_nonneg _

/-- **A crossed tick takes no more than the accumulator gains**, and yields nothing negative. -/
theorem outsideOf_le_of_cross (h : t.cross mode age = .ok t')
    (hgross : 0 ≤ (t.stakeOf id).gross.raw) (houtside : 0 ≤ (t.outsideOf id).raw) :
    0 ≤ t'.yieldOf id ∧ (t'.outsideOf id).raw ≤ (t.outsideOf id).raw + t'.yieldOf id := by
  have hcross := outsideOf_cross h id
  have hnonneg := outsideOf_nonneg_of_cross h hgross houtside
  have hstake : t'.stakeOf id = t.stakeOf id := stakeFor_cross h (some id)
  rw [yieldOf, hstake]
  split at hcross
  next hzero =>
    rw [if_pos hzero, hcross]
    omega
  next hzero =>
    rw [if_neg hzero]
    omega

end TickState

end RangeLedger
