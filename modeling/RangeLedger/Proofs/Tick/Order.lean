import RangeLedger.Proofs.Operation.Reversal
import RangeLedger.Proofs.Tick.Outside

/-!
# Two changes of a tick

Two positions that both end at a tick change it one after the other. What the changes come to does
not depend on the order: stakes are sums, records are started for the incentives of the pool
whichever change comes first, and so is the stamp that a tick gets which nothing referenced.

That no check refuses the other order is another matter. The gross sum grows with every position, so
if it fits in the end it fits on the way. The net sum grows at a lower boundary and falls at an
upper one, and could leave its range in one order only. It does not if it is **covered**, at most as
large as the gross sum on either side, as it is where all liquidity comes from positions.

## Main results

* `Stake.shift_swap`: two changes of a covered stake can change places.
* `TickState.ext_scopes`: what a tick is made of.
* `TickState.change_swap`: two changes of a tick can change places.
-/

namespace RangeLedger

/-! ### Stakes -/

namespace Stake

/-- The net sum is at most as large as the gross sum, on either side. -/
def Covered (s : Stake) : Prop := -s.gross.raw ≤ s.net.raw ∧ s.net.raw ≤ s.gross.raw

instance (s : Stake) : Decidable s.Covered :=
  inferInstanceAs (Decidable (_ ∧ _))

/-- The gross sum of a covered stake is not negative. -/
theorem Covered.gross_nonneg {s : Stake} (h : s.Covered) : 0 ≤ s.gross.raw := by
  obtain ⟨hlow, hhigh⟩ := h
  omega

/-- A change of a stake by signed sums. -/
theorem shift_eq_ok_iff_signed {s t : Stake} {edge : Edge} {delta : Dec} :
    s.shift edge delta = .ok t ↔ t.gross.raw = s.gross.raw + delta.raw ∧ 0 ≤ t.gross.raw ∧
      t.net.raw = s.net.raw + edge.signed delta.raw := by
  rw [shift_eq_ok_iff]
  cases edge with
  | lower => rfl
  | upper =>
    rw [Edge.signed_upper, ← Int.sub_eq_add_neg]

/-- **Two changes of a covered stake** by new liquidity can change places. -/
theorem shift_swap {s s₁ s₂ : Stake} {edge edge' : Edge} {x y : Dec} (hx : 0 < x.raw)
    (hy : 0 < y.raw) (hcovered : s.Covered) (h : s.shift edge x = .ok s₁)
    (h' : s₁.shift edge' y = .ok s₂) :
    ∃ k, s.shift edge' y = .ok k ∧ k.shift edge x = .ok s₂ := by
  rw [shift_eq_ok_iff_signed] at h h'
  obtain ⟨hgross, -, hnet⟩ := h
  obtain ⟨hgross', -, hnet'⟩ := h'
  have hheld := hcovered.gross_nonneg
  obtain ⟨hlow, hhigh⟩ := hcovered
  have hfits := s₂.gross.lt_limit
  have hsigned : -y.raw ≤ edge'.signed y.raw ∧ edge'.signed y.raw ≤ y.raw := by
    cases edge' with
    | lower => rw [Edge.signed_lower]; omega
    | upper => rw [Edge.signed_upper]; omega
  obtain ⟨k, hk⟩ : ∃ k, s.shift edge' y = .ok k :=
    exists_shift (by omega) (by omega) (by omega) (by omega)
  obtain ⟨hkgross, -, hknet⟩ := shift_eq_ok_iff_signed.1 hk
  exact ⟨k, hk, shift_eq_ok_iff_signed.2 ⟨by omega, by omega, by omega⟩⟩

end Stake

/-! ### Ticks -/

namespace TickState

variable {t t' t₁ t₂ : TickState} {p : Pool} {now : Timestamp} {edge edge' : Edge} {x y : Dec}
  {ids ids' : OrderedSet IncentiveId}

/-- **What a tick is made of**: its stake and those of its records, its inactive time, the records
that there are, and their outside values. -/
theorem ext_scopes (hstakes : ∀ scope, t.stakeFor scope = t'.stakeFor scope)
    (hinactive : t.inactive = t'.inactive)
    (hkept : ∀ id, t.incentives.contains id = t'.incentives.contains id)
    (houtside : ∀ id, t.outsideOf id = t'.outsideOf id) : t = t' := by
  refine TickState.ext (hstakes none) hinactive (Map.ext_get? fun id => ?_)
  have hid := hkept id
  have hstake := hstakes (some id)
  have hvalue := houtside id
  rw [Map.contains, Map.contains] at hid
  simp only [stakeFor, stakeOf, outsideOf] at hstake hvalue
  cases hrecord : t.incentives.get? id with
  | none =>
    cases hrecord' : t'.incentives.get? id with
    | none => rfl
    | some record' =>
      rw [hrecord, hrecord'] at hid
      cases hid
  | some record =>
    cases hrecord' : t'.incentives.get? id with
    | none =>
      rw [hrecord, hrecord'] at hid
      cases hid
    | some record' =>
      rw [hrecord, hrecord'] at hstake hvalue
      exact congrArg some (TickIncentive.ext hstake hvalue)

/-- A shift of records leaves the inactive time. -/
theorem inactive_shiftIncentives {pool : PoolId} {ids : List IncentiveId}
    (h : t.shiftIncentives pool ids edge x = .ok t') : t'.inactive = t.inactive := by
  refine foldlM_invariant (fun _ (state : TickState) => state.inactive = t.inactive)
    (fun id _ state next hstate hstep => ?_) rfl h
  split at hstep
  next outcome houtcome =>
    obtain ⟨record, -, hrecord⟩ := Option.map_eq_some_iff.1 houtcome
    rw [← hrecord, mapError_eq_ok_iff] at hstep
    obtain ⟨_, -, heq⟩ := bind_eq_ok_iff.1 hstep
    cases heq
    exact hstate
  next => cases hstep

/-- A change stamps a tick that nothing referenced. -/
theorem inactive_change (h : t.change p now edge x ids = .ok t') :
    t'.inactive = (t.stamp (now.since p.created)).inactive := by
  obtain ⟨shifted, hshift, h⟩ := bind_eq_ok_iff.1 h
  obtain ⟨stake, -, heq⟩ := bind_eq_ok_iff.1 (mapError_eq_ok_iff.1 hshift)
  cases heq
  exact (inactive_shiftIncentives h).trans rfl

/-- A tick with liquidity is not stamped. -/
theorem stamp_of_pos (h : 0 < t.stake.gross.raw) (age : Duration) : t.stamp age = t := by
  rw [stamp, if_neg]
  have hne : t.stake.gross.raw ≠ 0 := Int.ne_of_gt h
  simp [isInactive, Stake.isZero, Dec.isZero, hne]

/-- After a change by new liquidity the tick has liquidity, if it owed none before. -/
theorem gross_pos_of_change (h : t.change p now edge x ids = .ok t') (hx : 0 < x.raw)
    (hheld : 0 ≤ t.stake.gross.raw) : 0 < t'.stake.gross.raw := by
  have hscope := stakeFor_change h none
  rw [if_pos (show Scope.Counts ids none from trivial), Stake.shift_eq_ok_iff_signed] at hscope
  obtain ⟨hgross, -, -⟩ := hscope
  change t'.stake.gross.raw = t.stake.gross.raw + x.raw at hgross
  omega

section Swap

variable (hx : 0 < x.raw) (hy : 0 < y.raw)
  (hcovered : ∀ scope : Scope, scope.Counts ids → scope.Counts ids' → (t.stakeFor scope).Covered)

include hx hy hcovered

/-- The second of two changes is not refused without the first. -/
theorem exists_change_before (hids' : ∀ id ∈ ids'.toList, p.incentives.contains id = true)
    (h : t.change p now edge x ids = .ok t₁) (h' : t₁.change p now edge' y ids' = .ok t₂) :
    ∃ k, t.change p now edge' y ids' = .ok k := by
  refine exists_change now hids' fun scope hcounts' => ?_
  have hfirst := stakeFor_change h scope
  have hsecond := stakeFor_change h' scope
  rw [if_pos hcounts'] at hsecond
  by_cases hcounts : scope.Counts ids
  · rw [if_pos hcounts] at hfirst
    obtain ⟨stake, hstake, -⟩ :=
      Stake.shift_swap hx hy (hcovered scope hcounts hcounts') hfirst hsecond
    exact ⟨stake, hstake⟩
  · rw [if_neg hcounts] at hfirst
    exact ⟨_, hfirst ▸ hsecond⟩

/-- After the second of two changes, the first takes each stake to where the two have taken it. -/
theorem stakeFor_swap {k : TickState} (h : t.change p now edge x ids = .ok t₁)
    (h' : t₁.change p now edge' y ids' = .ok t₂) (hk : t.change p now edge' y ids' = .ok k)
    (scope : Scope) :
    if scope.Counts ids then (k.stakeFor scope).shift edge x = .ok (t₂.stakeFor scope)
    else t₂.stakeFor scope = k.stakeFor scope := by
  have hfirst := stakeFor_change h scope
  have hsecond := stakeFor_change h' scope
  have hshifted := stakeFor_change hk scope
  by_cases hcounts : scope.Counts ids <;> by_cases hcounts' : scope.Counts ids' <;>
    simp only [hcounts, hcounts', if_true, if_false] at hfirst hsecond hshifted ⊢
  · obtain ⟨stake, hstake, hswapped⟩ :=
      Stake.shift_swap hx hy (hcovered scope hcounts hcounts') hfirst hsecond
    rw [hshifted] at hstake
    cases hstake
    exact hswapped
  · rw [hsecond, hshifted]
    exact hfirst
  · rw [hfirst, hshifted] at hsecond
    exact (Except.ok.inj hsecond).symm
  · rw [hsecond, hfirst, hshifted]

/-- **Two changes of a tick** by new liquidity, at one time and on behalf of one pool, can change
places where every stake that both of them change is covered. -/
theorem change_swap (hids : ∀ id ∈ ids.toList, p.incentives.contains id = true)
    (hids' : ∀ id ∈ ids'.toList, p.incentives.contains id = true)
    (h : t.change p now edge x ids = .ok t₁) (h' : t₁.change p now edge' y ids' = .ok t₂) :
    ∃ k, t.change p now edge' y ids' = .ok k ∧ k.change p now edge x ids = .ok t₂ := by
  obtain ⟨k, hk⟩ := exists_change_before hx hy hcovered hids' h h'
  have hback := stakeFor_swap hx hy hcovered h h' hk
  obtain ⟨t₃, ht₃⟩ : ∃ t₃, k.change p now edge x ids = .ok t₃ := by
    refine exists_change now hids fun scope hcounts => ?_
    have hback := hback scope
    rw [if_pos hcounts] at hback
    exact ⟨_, hback⟩
  refine ⟨k, hk, ?_⟩
  have hheld := (hcovered none trivial trivial).gross_nonneg
  rw [ht₃]
  refine congrArg Except.ok (ext_scopes (fun scope => ?_) ?_ (fun id => ?_) fun id => ?_)
  · have hback := hback scope
    have hthird := stakeFor_change ht₃ scope
    split at hback
    next hcounts =>
      rw [if_pos hcounts, hback] at hthird
      exact (Except.ok.inj hthird).symm
    next hcounts =>
      rw [if_neg hcounts] at hthird
      exact hthird.trans hback.symm
  · rw [inactive_change ht₃, stamp_of_pos (gross_pos_of_change hk hy hheld), inactive_change hk,
      inactive_change h', stamp_of_pos (gross_pos_of_change h hx hheld), inactive_change h]
  · rw [Bool.eq_iff_iff, (outsideOf_change ht₃ id).2, (outsideOf_change hk id).2,
      (outsideOf_change h' id).2, (outsideOf_change h id).2]
  · rw [(outsideOf_change ht₃ id).1, (outsideOf_change hk id).1, (outsideOf_change h' id).1,
      (outsideOf_change h id).1]

end Swap

end TickState

end RangeLedger
