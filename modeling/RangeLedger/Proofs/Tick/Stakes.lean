import RangeLedger.Operation.Positions
import RangeLedger.Proofs.Failure
import RangeLedger.Proofs.Storage.Commit

/-!
# The stakes of a tick

A tick keeps the liquidity that ends there more than once: for the tick as a whole, and for each
incentive in a record of its own. A **scope** says which of these is meant, and a record that is
missing reads as zero. All of them obey one law: a change of a position shifts the stakes of the
scopes that the position counts for and leaves the others, and a crossing leaves all of them.

## Main results

* `TickState.stakeFor_change`: what a change of a position does to the stakes of a tick.
* `TickState.stakeFor_cross`: a crossing keeps every stake.
* `Pool.accrue_eq`: a crossing changes nothing of the pool but its accumulators.
-/

namespace RangeLedger

/-- The tick as a whole, or the record of one incentive. -/
abbrev Scope := Option IncentiveId

/-- Whether a position with the given incentives counts in a scope. -/
def Scope.Counts (ids : OrderedSet IncentiveId) : Scope → Prop
  | none => True
  | some id => id ∈ ids.toList

instance (ids : OrderedSet IncentiveId) (scope : Scope) : Decidable (scope.Counts ids) := by
  cases scope with
  | none => exact isTrue trivial
  | some id => exact inferInstanceAs (Decidable (id ∈ ids.toList))

namespace TickState

variable {t t' : TickState} {edge : Edge} {delta : Dec}

/-- The stake in the record of an incentive; a missing record reads as zero. -/
def stakeOf (t : TickState) (id : IncentiveId) : Stake :=
  ((t.incentives.get? id).getD TickIncentive.zero).stake

/-- The stake of a scope. -/
def stakeFor (t : TickState) : Scope → Stake
  | none => t.stake
  | some id => t.stakeOf id

/-- A tick that nothing touched has no stake in any scope. -/
@[simp] theorem stakeFor_zero (scope : Scope) : zero.stakeFor scope = Stake.zero := by
  cases scope <;> rfl

/-! ### Changes of a position -/

/-- A stamp leaves the stakes. -/
theorem stakeFor_stamp (age : Duration) (scope : Scope) :
    (t.stamp age).stakeFor scope = t.stakeFor scope := by
  rw [stamp]
  split
  · cases scope <;> rfl
  · rfl

/-- Records that are started hold nothing, as they did before they were started. -/
theorem stakeFor_track (ids : List IncentiveId) (scope : Scope) :
    (t.track ids).stakeFor scope = t.stakeFor scope := by
  cases scope with
  | none => rfl
  | some id =>
    have hfold (m : Map IncentiveId TickIncentive) :
        (((ids.foldl (fun m id => m.insertNew id TickIncentive.zero) m).get? id).getD
          TickIncentive.zero) = (m.get? id).getD TickIncentive.zero := by
      induction ids generalizing m with
      | nil => rfl
      | cons first rest ih =>
        rw [List.foldl_cons, ih, Map.get?_insertNew]
        split
        next h => rw [h, Option.getD_some]
        next => rfl
    exact congrArg TickIncentive.stake (hfold t.incentives)

/-- A change of one record shifts its stake and leaves the others and the tick as a whole. -/
theorem stakeFor_shiftIncentive {id : IncentiveId}
    (h : t.shiftIncentive id edge delta = some (.ok t')) (scope : Scope) :
    if scope = some id then (t.stakeFor scope).shift edge delta = .ok (t'.stakeFor scope)
    else t'.stakeFor scope = t.stakeFor scope := by
  obtain ⟨record, hrecord, h⟩ := Option.map_eq_some_iff.1 h
  rw [bind_eq_ok_iff] at h
  obtain ⟨stake, hstake, h⟩ := h
  cases h
  cases scope with
  | none => rw [if_neg nofun]; rfl
  | some id' =>
    simp only [stakeFor, stakeOf]
    simp only [Option.some.injEq, Map.get?_insert]
    by_cases hid : id' = id
    · subst hid
      rw [if_pos rfl, if_pos rfl, hrecord]
      exact hstake
    · rw [if_neg hid, if_neg (Ne.symm hid)]

/-- A change of several records shifts the stake of each of them once. -/
theorem stakeFor_shiftIncentives {pool : PoolId} {ids : List IncentiveId} (hids : ids.Nodup)
    (h : t.shiftIncentives pool ids edge delta = .ok t') (scope : Scope) :
    if ∃ id ∈ ids, scope = some id then
      (t.stakeFor scope).shift edge delta = .ok (t'.stakeFor scope)
    else t'.stakeFor scope = t.stakeFor scope := by
  induction ids generalizing t with
  | nil =>
    cases h
    rw [if_neg (by simp)]
  | cons first rest ih =>
    obtain ⟨hfirst, hrest⟩ := List.nodup_cons.1 hids
    rw [shiftIncentives, List.foldlM_cons, bind_eq_ok_iff] at h
    obtain ⟨mid, hmid, h⟩ := h
    have hmid : t.shiftIncentive first edge delta = some (.ok mid) := by
      split at hmid
      next outcome houtcome =>
        rw [mapError_eq_ok_iff] at hmid
        rw [houtcome, hmid]
      next => cases hmid
    have hone := stakeFor_shiftIncentive hmid scope
    have hothers := ih hrest h
    by_cases hscope : scope = some first
    · -- the others come without the first, so they leave what it did
      rw [if_pos hscope] at hone
      rw [if_neg fun ⟨id, hid, heq⟩ => hfirst (Option.some.inj (hscope.symm.trans heq) ▸ hid)]
        at hothers
      rw [if_pos ⟨first, by simp, hscope⟩, hothers]
      exact hone
    · rw [if_neg hscope] at hone
      have hiff : (∃ id ∈ first :: rest, scope = some id) ↔ ∃ id ∈ rest, scope = some id := by
        simp [hscope]
      simp only [hiff]
      rw [hone] at hothers
      exact hothers

/-- No member of an ordered set is listed twice. -/
theorem nodup_toList {κ : Type} [Ord κ] [Std.TransOrd κ] [Std.LawfulEqOrd κ] [DecidableEq κ]
    (s : OrderedSet κ) : s.toList.Nodup :=
  Table.pairwise_ne s

/-- **What a change of a position does to a tick**: it shifts the stake of the tick, and the stake
in the record of each of its incentives, and leaves the records of the others. -/
theorem stakeFor_change {p : Pool} {now : Timestamp} {ids : OrderedSet IncentiveId}
    (h : t.change p now edge delta ids = .ok t') (scope : Scope) :
    if scope.Counts ids then (t.stakeFor scope).shift edge delta = .ok (t'.stakeFor scope)
    else t'.stakeFor scope = t.stakeFor scope := by
  rw [change, bind_eq_ok_iff] at h
  obtain ⟨shifted, hshift, h⟩ := h
  rw [mapError_eq_ok_iff] at hshift
  obtain ⟨stake, hstake, heq⟩ := bind_eq_ok_iff.1 hshift
  cases heq
  have hrecords := stakeFor_shiftIncentives (nodup_toList ids) h scope
  rw [stakeFor_track] at hrecords
  cases scope with
  | none =>
    rw [if_neg (by simp)] at hrecords
    rw [if_pos (show Scope.Counts ids none from trivial), hrecords,
      ← stakeFor_stamp (t := t) (now.since p.created) none]
    exact hstake
  | some id =>
    have hiff : (∃ id' ∈ ids.toList, some id = some id') ↔ Scope.Counts ids (some id) := by
      simp [Scope.Counts]
    simp only [hiff] at hrecords
    rw [← stakeFor_stamp (t := t) (now.since p.created) (some id)]
    exact hrecords

/-! ### Crossings -/

/-- A crossing takes new outside values and keeps the stake of every record. -/
theorem stake_cross {r r' : TickIncentive} {seconds : Dec} (h : r.cross seconds = .ok r') :
    r'.stake = r.stake := by
  rw [TickIncentive.cross] at h
  split at h
  · cases h
    rfl
  · obtain ⟨outside, -, h⟩ := bind_eq_ok_iff.1 h
    cases h
    rfl

/-- **A crossing keeps every stake** of the tick. -/
theorem stakeFor_cross {mode : InactiveMode} {age : Duration} (h : t.cross mode age = .ok t')
    (scope : Scope) : t'.stakeFor scope = t.stakeFor scope := by
  obtain ⟨records, hrecords, h⟩ := bind_eq_ok_iff.1 h
  cases h
  cases scope with
  | none => rfl
  | some id =>
    -- every entry that is left to refresh is an entry of the tick
    refine (foldlM_invariant (fun rest (m : Map IncentiveId TickIncentive) =>
      (∀ entry ∈ rest, entry ∈ t.incentives.toList) ∧
        ((m.get? id).getD TickIncentive.zero).stake = t.stakeOf id)
      (fun entry rest m m' hm hstep => ?_) ⟨fun _ h => h, rfl⟩ hrecords).2
    obtain ⟨refreshed, hrefresh, hinsert⟩ := bind_eq_ok_iff.1 hstep
    cases hinsert
    refine ⟨fun e he => hm.1 e (List.mem_cons_of_mem entry he), ?_⟩
    rw [Map.get?_insert]
    split
    next hid =>
      have hentry : t.incentives.get? id = some entry.2 :=
        Map.get?_eq_some_iff_mem.2 (hid ▸ hm.1 entry List.mem_cons_self)
      rw [stakeOf, hentry]
      exact stake_cross hrefresh
    next => exact hm.2

end TickState

namespace Pool

variable {p p' : Pool}

/-- Adding to the accumulators changes nothing else of the pool. -/
theorem accrue_eq {records : Map IncentiveId TickIncentive} (h : p.accrue records = .ok p') :
    p' = { p with incentives := p'.incentives } := by
  refine foldlM_invariant (fun _ (q : Pool) => q = { p with incentives := q.incentives })
    (fun entry _ q q' hq hstep => ?_) rfl h
  rw [accrueOne] at hstep
  split at hstep
  · split at hstep
    · cases hstep
      exact hq
    · obtain ⟨total, -, heq⟩ := bind_eq_ok_iff.1 hstep
      cases heq
      rw [hq]
  · cases hstep
    exact hq

end Pool

end RangeLedger
