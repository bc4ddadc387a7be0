import RangeLedger.Proofs.Operation.Effect
import RangeLedger.Proofs.Pool.Signs

/-!
# Taking a deposit back

A withdrawal of the liquidity that a deposit created changes the same position by the same liquidity
with the other sign. Here it is shown that no check on the way refuses it, and that it restores what
the deposit changed but for the first price of a pool.

What the checks ask for are sums that do not fall below zero, and after the withdrawal the sums are
those from before the deposit. So all that is needed of the store before is that it owes nothing
(`Store.Funded`), which holds in every state that calls can lead to.

## Main results

* `TickState.exists_change`, `Stake.exists_shift`: when a change of a tick succeeds.
* `Store.Repositioned.exists_back`: a change of a position can be taken back.
* `Store.Repositioned.restores`: what is then restored.
* `Operation.exists_undo`: the two for a deposit.
-/

namespace RangeLedger

/-! ### Changes of a tick that succeed -/

namespace TickState

variable {t : TickState} {edge : Edge} {delta : Dec}

/-- A change of several records succeeds if the tick has all of them and none of their stakes
refuses. -/
theorem exists_shiftIncentives (pool : PoolId) {ids : List IncentiveId} (hids : ids.Nodup)
    (hkept : ∀ id ∈ ids, t.incentives.contains id = true)
    (hshift : ∀ id ∈ ids, ∃ stake, (t.stakeOf id).shift edge delta = .ok stake) :
    ∃ t', t.shiftIncentives pool ids edge delta = .ok t' := by
  induction ids generalizing t with
  | nil => exact ⟨t, rfl⟩
  | cons first rest ih =>
    obtain ⟨hfirst, hrest⟩ := List.nodup_cons.1 hids
    obtain ⟨record, hrecord⟩ := Option.isSome_iff_exists.1 (hkept first List.mem_cons_self)
    obtain ⟨stake, hstake⟩ := hshift first List.mem_cons_self
    rw [stakeOf, hrecord, Option.getD_some] at hstake
    obtain ⟨next, hnext, hkeeps⟩ : ∃ next, t.shiftIncentive first edge delta = some (.ok next) ∧
        ∀ id, t.incentives.contains id = true → next.incentives.contains id = true := by
      refine ⟨{ t with incentives := t.incentives.insert first { record with stake := stake } },
        Option.map_eq_some_iff.2 ⟨record, hrecord, bind_eq_ok_iff.2 ⟨stake, hstake, rfl⟩⟩,
        fun id hid => ?_⟩
      rw [Map.contains, Map.get?_insert]
      split
      · rfl
      · exact hid
    have hothers : ∀ id ∈ rest, next.stakeOf id = t.stakeOf id := by
      intro id hid
      have hne : ¬some id = some first := fun heq => hfirst (Option.some.inj heq ▸ hid)
      have hscope := stakeFor_shiftIncentive hnext (some id)
      rwa [if_neg hne] at hscope
    obtain ⟨t', ht'⟩ := ih hrest
      (fun id hid => hkeeps id (hkept id (List.mem_cons_of_mem first hid))) fun id hid => by
        rw [hothers id hid]
        exact hshift id (List.mem_cons_of_mem first hid)
    refine ⟨t', ?_⟩
    rw [shiftIncentives, List.foldlM_cons]
    refine bind_eq_ok_iff.2 ⟨next, ?_, ht'⟩
    rw [hnext]
    rfl

/-- **A change of a tick succeeds** if all the incentives of the position run on the pool and no
stake that it shifts refuses. -/
theorem exists_change {p : Pool} (now : Timestamp) {ids : OrderedSet IncentiveId}
    (hids : ∀ id ∈ ids.toList, p.incentives.contains id = true)
    (hshift : ∀ scope : Scope, scope.Counts ids →
      ∃ stake, (t.stakeFor scope).shift edge delta = .ok stake) :
    ∃ t', t.change p now edge delta ids = .ok t' := by
  obtain ⟨stake, hstake⟩ := hshift none trivial
  rw [← stakeFor_stamp (now.since p.created)] at hstake
  -- the tick after its own stake was shifted, which leaves the records as they were
  obtain ⟨first, hfirst, hrecords⟩ : ∃ first,
      (t.stamp (now.since p.created)).shift edge delta = .ok first ∧
        ∀ id, first.stakeFor (some id) = t.stakeFor (some id) :=
    ⟨_, bind_eq_ok_iff.2 ⟨stake, hstake, rfl⟩, fun id => stakeFor_stamp _ (some id)⟩
  obtain ⟨t', ht'⟩ : ∃ t', (first.track p.incentives.keys).shiftIncentives p.id ids.toList edge
      delta = .ok t' := by
    refine exists_shiftIncentives p.id (nodup_toList ids) (fun id hid => ?_) fun id hid => ?_
    · exact (Map.contains_foldl_insertNew _ _ _ _).2
        (.inr (Map.contains_iff_mem_keys.1 (hids id hid)))
    · change ∃ stake, ((first.track p.incentives.keys).stakeFor (some id)).shift edge delta = _
      rw [stakeFor_track, hrecords]
      exact hshift (some id) hid
  refine ⟨t', ?_⟩
  rw [change, hfirst]
  exact ht'

end TickState

/-- **A stake can be shifted** if the gross sum does not fall below zero and neither sum leaves the
range of decimals. -/
theorem Stake.exists_shift {s : Stake} {edge : Edge} {delta : Dec}
    (hgross : 0 ≤ s.gross.raw + delta.raw) (hgross' : s.gross.raw + delta.raw < Dec.limit)
    (hnet : -Dec.limit ≤ s.net.raw + edge.signed delta.raw)
    (hnet' : s.net.raw + edge.signed delta.raw < Dec.limit) :
    ∃ t, s.shift edge delta = .ok t := by
  have hlimit : 0 < Dec.limit := by decide
  refine ⟨⟨⟨s.gross.raw + delta.raw, by omega, hgross'⟩, ⟨_, hnet, hnet'⟩⟩,
    Stake.shift_eq_ok_iff.2 ⟨rfl, hgross, ?_⟩⟩
  cases edge with
  | lower => rfl
  | upper => exact (Int.sub_eq_add_neg).symm

/-! ### Changes of a position that are taken back -/

/-- A stake that has gained some liquidity can lose it again. -/
theorem Stake.shift_back {s t : Stake} {edge : Edge} {delta : Dec} (hdelta : -Dec.limit < delta.raw)
    (hheld : 0 ≤ s.gross.raw) (hgross : t.gross.raw = s.gross.raw + delta.raw)
    (hnet : t.net.raw = s.net.raw + edge.signed delta.raw) : t.shift edge delta.neg = .ok s := by
  rw [Stake.shift_eq_ok_iff, Dec.raw_neg hdelta]
  cases edge with
  | lower =>
    rw [Edge.signed_lower] at hnet
    dsimp only
    omega
  | upper =>
    rw [Edge.signed_upper] at hnet
    dsimp only
    omega

/-- The active liquidity can lose liquidity if some liquidity is left then. -/
theorem Pool.exists_shiftActive_neg {p : Pool} {lower upper : Tick} {x : Dec}
    (hx : -Dec.limit < x.raw)
    (hleft : p.InRange lower upper → ∃ left : Dec, 0 ≤ left.raw ∧
      left.raw = p.liquidity.raw - x.raw) :
    ∃ outcome, p.shiftActive lower upper x.neg = .ok outcome := by
  rw [shiftActive]
  by_cases hrange : p.InRange lower upper
  · obtain ⟨left, hnonneg, heq⟩ := hleft hrange
    rw [if_pos hrange]
    refine ⟨_, bind_eq_ok_iff.2 ⟨left, bind_eq_ok_iff.2 ⟨left, ?_, ?_⟩, rfl⟩⟩
    · rw [Dec.add_eq_ok_iff, Dec.raw_neg hx]
      omega
    · rw [if_neg]
      simpa [Dec.isNegative] using hnonneg
  · rw [if_neg hrange]
    exact ⟨none, rfl⟩

/-- The active liquidity that has changed on behalf of a range can change back. -/
theorem Pool.exists_shiftActive_back {p : Pool} {lower upper : Tick} {delta active : Dec}
    (hdelta : -Dec.limit < delta.raw) (hheld : 0 ≤ p.liquidity.raw)
    (hactive : active.raw =
      p.liquidity.raw + if p.InRange lower upper then delta.raw else 0) :
    ∃ outcome, Pool.shiftActive { p with liquidity := active } lower upper delta.neg =
      .ok outcome := by
  refine Pool.exists_shiftActive_neg hdelta fun hrange => ⟨p.liquidity, hheld, ?_⟩
  have hrange : p.InRange lower upper := hrange
  rw [if_pos hrange] at hactive
  change p.liquidity.raw = active.raw - delta.raw
  omega

namespace Store

variable {s s' s'' : Store}

/-- Nothing in a store is owed: no stake and no active liquidity is below zero, and every position
holds something. -/
structure Funded (s : Store) : Prop where
  gross : ∀ id t scope, 0 ≤ ((s.tickAt id t).stakeFor scope).gross.raw
  active : ∀ id p, s.pools.get? id = some p → 0 ≤ p.liquidity.raw
  positions : ∀ key p, s.positions.get? key = some p → 0 < p.liquidity.raw

/-- After a first price the store owes nothing, if it did not before. -/
theorem Funded.of_pricedAs (h : s.Funded) {found p : Pool} {amount0 amount1 : Amount} {id : PoolId}
    (hfound : s.pools.get? id = some found)
    (hs : Operation.PricedAs s found amount0 amount1 p s') : s'.Funded := by
  refine ⟨fun id t scope => ?_, fun id' q' hq' => ?_, fun key position hposition => ?_⟩
  · obtain ⟨-, -, rfl⟩ | ⟨-, -, rfl⟩ := hs
    · exact h.gross id t scope
    · exact h.gross id t scope
  · obtain ⟨q, hq, heq⟩ := hs.pool hfound hq'
    rw [heq]
    exact h.active id' q hq
  · rw [hs.positions_eq] at hposition
    exact h.positions key position hposition

/-- A changed position that is stored has gained the liquidity, and nothing else of it changed. -/
theorem Repositioned.after_eq {position after : Position} {delta : Dec}
    (h : s.Repositioned position delta s') (hafter : s'.positions.get? position.key = some after) :
    after = { position with liquidity := after.liquidity } ∧
      after.liquidity.raw = position.liquidity.raw + delta.raw := by
  obtain ⟨liquidity, hadd, -, hpositions⟩ := h.liquidity
  rw [hpositions, if_pos rfl] at hafter
  split at hafter
  next => cases hafter
  next =>
    cases hafter
    exact ⟨rfl, Dec.add_eq_ok_iff.1 hadd⟩

/-- A changed position is stored if something is left of it. -/
theorem Repositioned.exists_after {position : Position} {delta : Dec}
    (h : s.Repositioned position delta s') (hleft : 0 < position.liquidity.raw + delta.raw) :
    ∃ after, s'.positions.get? position.key = some after := by
  obtain ⟨liquidity, hadd, -, hpositions⟩ := h.liquidity
  have hraw := Dec.add_eq_ok_iff.1 hadd
  refine ⟨{ position with liquidity := liquidity }, ?_⟩
  rw [hpositions, if_pos rfl, if_neg]
  simp only [Dec.isZero, beq_iff_eq]
  omega

section

variable {position : Position} {delta : Dec} (h : s.Repositioned position delta s')
  (hdelta : -Dec.limit < delta.raw)

include h hdelta

/-- At both of its boundaries the liquidity of a changed position can be taken back. -/
theorem Repositioned.shift_back (hs : s.Funded) (hne : position.key.lower ≠ position.key.upper)
    {scope : Scope} (hcounts : scope.Counts position.incentives) :
    ((s'.tickAt position.key.pool position.key.lower).stakeFor scope).shift .lower delta.neg =
        .ok ((s.tickAt position.key.pool position.key.lower).stakeFor scope) ∧
      ((s'.tickAt position.key.pool position.key.upper).stakeFor scope).shift .upper delta.neg =
        .ok ((s.tickAt position.key.pool position.key.upper).stakeFor scope) := by
  have hgross := h.gross position.key.pool
  have hnet := h.net position.key.pool
  constructor
  · refine Stake.shift_back hdelta (hs.gross _ _ _) ?_ ?_
    · rw [hgross]
      simp [hcounts, Ne.symm hne]
    · rw [hnet]
      simp [hcounts, Ne.symm hne]
  · refine Stake.shift_back hdelta (hs.gross _ _ _) ?_ ?_
    · rw [hgross]
      simp [hcounts, hne]
    · rw [hnet]
      simp [hcounts, hne]
      omega

/-- **A change of a position can be taken back** if nothing was owed before, by a position that then
is stored. -/
theorem Repositioned.exists_back (hs : s.Funded) (hne : position.key.lower ≠ position.key.upper)
    (hids : ∀ p, s.pools.get? position.key.pool = some p →
      ∀ id ∈ position.incentives.toList, p.incentives.contains id = true)
    {after : Position} (hafter : s'.positions.get? position.key = some after) (now : Timestamp) :
    ∃ s'', (Operation.changePosition now after delta.neg).run s' = (.ok (), s'') := by
  obtain ⟨hafter, hliquidity⟩ := h.after_eq hafter
  obtain ⟨p, active, hp, hactive, hpools⟩ := h.pools
  have hp' : s'.pools.get? position.key.pool = some { p with liquidity := active } := by
    rw [hpools, if_pos rfl]
  have hshift (scope : Scope) (hcounts : scope.Counts position.incentives) :=
    h.shift_back hdelta hs hne hcounts
  obtain ⟨atLower, hlower⟩ := TickState.exists_change (p := { p with liquidity := active }) now
    (hids p hp) fun scope hcounts => ⟨_, (hshift scope hcounts).1⟩
  obtain ⟨atUpper, hupper⟩ := TickState.exists_change (p := { p with liquidity := active }) now
    (hids p hp) fun scope hcounts => ⟨_, (hshift scope hcounts).2⟩
  obtain ⟨outcome, houtcome⟩ := Pool.exists_shiftActive_back hdelta (hs.active _ p hp) hactive
  have hback : after.liquidity.add delta.neg = .ok position.liquidity := by
    rw [Dec.add_eq_ok_iff, Dec.raw_neg hdelta]
    omega
  rw [hafter]
  refine ⟨_, Operation.changePosition_eq_ok_iff.2 ⟨_, atLower, atUpper, outcome, position.liquidity,
    hp', hlower, ?_, houtcome, hback, rfl⟩⟩
  rw [tickAt_setTick, if_neg fun hat => hne hat.2]
  exact hupper

/-- Taking a change back leaves the position as it was, or removes it if there was none. -/
theorem Repositioned.positions_back (hs : s.Funded)
    (htarget : s.Target position.key position.incentives position) {liquidity : Dec}
    (hliquidity : liquidity.raw = position.liquidity.raw + delta.raw)
    (h' : s'.Repositioned { position with liquidity := liquidity } delta.neg s'') :
    s''.positions = s.positions := by
  obtain ⟨_, -, -, hpositions⟩ := h.liquidity
  obtain ⟨liquidity', hadd', -, hpositions'⟩ := h'.liquidity
  rw [Dec.add_eq_ok_iff, Dec.raw_neg hdelta] at hadd'
  dsimp only at hadd'
  obtain rfl : liquidity' = position.liquidity := Dec.ext (by omega)
  refine Table.ext_get? fun key => (hpositions' key).trans ?_
  dsimp only
  by_cases hkey : position.key = key
  · subst hkey
    rw [if_pos rfl]
    obtain ⟨hstored, -⟩ | ⟨hnone, hempty⟩ := htarget
    · have hpositive := hs.positions _ _ hstored
      rw [hstored, if_neg]
      simpa [Dec.isZero] using Int.ne_of_gt hpositive
    · rw [hnone, if_pos]
      rw [hempty]
      rfl
  · rw [if_neg hkey, hpositions, if_neg hkey]

/-- Taking a change back gives every stake what the change took, and takes what it gave. -/
theorem Repositioned.stakes_back {liquidity : Dec}
    (h' : s'.Repositioned { position with liquidity := liquidity } delta.neg s'') (id : PoolId)
    (t : Tick) (scope : Scope) :
    (s''.tickAt id t).stakeFor scope = (s.tickAt id t).stakeFor scope := by
  refine Stake.ext (Dec.ext ?_) (Dec.ext ?_)
  · rw [h'.gross, h.gross, Dec.raw_neg hdelta]
    dsimp only
    split_ifs <;> omega
  · rw [h'.net, h.net, Dec.raw_neg hdelta]
    dsimp only
    split_ifs <;> omega

/-- Taking a change back leaves every pool as it was. -/
theorem Repositioned.pools_back {liquidity : Dec}
    (h' : s'.Repositioned { position with liquidity := liquidity } delta.neg s'') :
    s''.pools = s.pools := by
  obtain ⟨p, active, hp, hactive, hpools⟩ := h.pools
  obtain ⟨p', active', hp', hactive', hpools'⟩ := h'.pools
  rw [hpools, if_pos rfl] at hp'
  cases hp'
  obtain rfl : active' = p.liquidity := by
    change active'.raw = active.raw + (if p.InRange _ _ then _ else _) at hactive'
    refine Dec.ext ?_
    rw [hactive', hactive, Dec.raw_neg hdelta]
    split_ifs <;> omega
  refine Table.ext_get? fun id => ?_
  rw [hpools', hpools]
  split
  next hid => rw [← hid, hp]
  next => rfl

/-- **What is restored** when a change of a position is taken back: the positions, the stakes of
every tick, and the pools. -/
theorem Repositioned.restores (hs : s.Funded)
    (htarget : s.Target position.key position.incentives position) {after : Position}
    (hafter : s'.positions.get? position.key = some after)
    (h' : s'.Repositioned after delta.neg s'') :
    s''.positions = s.positions ∧
      (∀ id t scope, (s''.tickAt id t).stakeFor scope = (s.tickAt id t).stakeFor scope) ∧
      s''.pools = s.pools := by
  obtain ⟨hafter, hliquidity⟩ := h.after_eq hafter
  rw [hafter] at h'
  exact ⟨h.positions_back hdelta hs htarget hliquidity h', h.stakes_back hdelta h',
    h.pools_back hdelta h'⟩

end

end Store

/-! ### Deposits that are taken back -/

namespace Operation

variable {s s' : Store}

/-- A first price touches no tick, and leaves the active liquidity of every pool. -/
theorem PricedAs.tickAt_eq {found p : Pool} {amount0 amount1 : Amount}
    (h : PricedAs s found amount0 amount1 p s') (id : PoolId) (t : Tick) :
    s'.tickAt id t = s.tickAt id t := by
  obtain ⟨-, -, rfl⟩ | ⟨-, -, rfl⟩ := h
  · rfl
  · rfl

/-- A first price leaves the active liquidity of every pool. -/
theorem PricedAs.liquidity_eq {found p : Pool} {amount0 amount1 : Amount} {id : PoolId}
    (h : PricedAs s found amount0 amount1 p s') (hfound : s.pools.get? id = some found)
    (id' : PoolId) :
    (s'.pools.get? id').map Pool.liquidity = (s.pools.get? id').map Pool.liquidity := by
  by_cases hid : id = id'
  · rw [← hid, h.get?_eq hfound, hfound, h.pool_eq]
    rfl
  · rw [h.get?_of_ne hfound hid]

/-- The change that a deposit makes to a position in a pool with a price can be taken back by the
withdrawal of the liquidity that was created, and this restores the store but for what is kept at
ticks beside the stakes. -/
theorem exists_undo_priced {now : Timestamp} {c : Config} {d : Deposit} {r : Receipt} {p : Pool}
    {position : Position} (hs : s.Funded) (hp : s.pools.get? d.pool = some p)
    (hrange : p.checkRange c d.lower d.upper = .ok ())
    (hids : p.checkIncentives d.incentives = .ok ()) (hquote : quote p d = .ok r)
    (htarget : s.Target d.key d.incentives position)
    (hchange : (changePosition now position r.liquidity).run s = (.ok (), s'))
    (now' : Timestamp) :
    ∃ s'', (withdraw now' c (d.undo r)).run s' = (.ok (r.amount0, r.amount1), s'') ∧
      s''.positions = s.positions ∧
      (∀ id t scope, (s''.tickAt id t).stakeFor scope = (s.tickAt id t).stakeFor scope) ∧
      s''.pools = s.pools := by
  obtain ⟨_, _, _, _, _, _, hpositive, -⟩ := quote_eq_ok_iff.1 hquote
  have hdelta : -Dec.limit < r.liquidity.raw := by
    rw [Dec.limit]
    omega
  have hkey := htarget.key_eq
  have hcommitted := htarget.incentives_eq
  have hheld := htarget.liquidity_nonneg hs.positions
  have heffect := changePosition_repositioned hchange
  -- the pool and the position that the withdrawal finds
  obtain ⟨q, active, hq, -, hpools⟩ := heffect.pools
  rw [hkey] at hq hpools
  obtain rfl : q = p := Option.some.inj (hq.symm.trans hp)
  have hpool : s'.pools.get? d.pool = some { q with liquidity := active } :=
    (hpools d.pool).trans (if_pos rfl)
  obtain ⟨after, hafter⟩ := heffect.exists_after (by omega)
  obtain ⟨heq, hliquidity⟩ := heffect.after_eq hafter
  have hne : position.key.lower ≠ position.key.upper := by
    have hordered : d.lower < d.upper := (Pool.checkRange_eq_ok_iff.1 hrange).2.2.2.1
    rw [hkey]
    intro heq
    exact Int.ne_of_lt hordered (congrArg Bounded.val heq)
  have hrunning : ∀ p, s.pools.get? position.key.pool = some p →
      ∀ id ∈ position.incentives.toList, p.incentives.contains id = true := by
    intro p hp'
    rw [hkey] at hp'
    obtain rfl : p = q := Option.some.inj (hp'.symm.trans hq)
    rw [hcommitted]
    exact Pool.checkIncentives_eq_ok_iff.1 hids
  obtain ⟨amounts, hrelease, h0, h1⟩ := release_of_quote active hquote
  obtain ⟨s'', hback⟩ := heffect.exists_back hdelta hs hne hrunning hafter now'
  refine ⟨s'', withdraw_eq_ok_iff.2 ⟨_, after, amounts, hpool, hrange, ?_, ?_, hpositive, ?_,
    hrelease, hback, h0, h1⟩, heffect.restores hdelta hs (hkey ▸ hcommitted ▸ htarget) hafter
      (changePosition_repositioned hback)⟩
  · rw [Deposit.undo_key, ← hkey]
    exact hafter
  · rw [heq]
    exact hcommitted
  · rw [hliquidity]
    change r.liquidity.raw ≤ _
    omega

/-- **A deposit can be taken back** on a store that owes nothing, at any time: the withdrawal of the
liquidity that it created pays the amounts that it took, and restores the positions, the stakes of
every tick and the active liquidity of every pool. -/
theorem exists_undo {now : Timestamp} {c : Config} {d : Deposit} {r : Receipt} (hs : s.Funded)
    (h : (deposit now c d).run s = (.ok r, s')) (now' : Timestamp) :
    ∃ s'', (withdraw now' c (d.undo r)).run s' = (.ok (r.amount0, r.amount1), s'') ∧
      s''.positions = s.positions ∧
      (∀ id t scope, (s''.tickAt id t).stakeFor scope = (s.tickAt id t).stakeFor scope) ∧
      ∀ id, (s''.pools.get? id).map Pool.liquidity = (s.pools.get? id).map Pool.liquidity := by
  obtain ⟨found, p, s₁, position, hfound, hrange, hids, hpriced, hquote, htarget, hchange⟩ :=
    deposit_eq_ok_iff.1 h
  -- what was admitted does not depend on the price
  have hrange' : p.checkRange c d.lower d.upper = .ok () := by
    rw [hpriced.pool_eq]
    exact hrange
  have hids' : p.checkIncentives d.incentives = .ok () := by
    rw [hpriced.pool_eq]
    exact hids
  obtain ⟨s'', hrun, hpositions, hstakes, hpools⟩ := exists_undo_priced
    (hs.of_pricedAs hfound hpriced) (hpriced.get?_eq hfound) hrange' hids' hquote htarget hchange
    now'
  refine ⟨s'', hrun, hpositions.trans hpriced.positions_eq, fun id t scope => ?_, fun id => ?_⟩
  · rw [hstakes, hpriced.tickAt_eq]
  · rw [hpools, hpriced.liquidity_eq hfound]

end Operation

end RangeLedger
