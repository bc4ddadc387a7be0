import RangeLedger.Proofs.Operation.Locality
import RangeLedger.Proofs.Tick.Order

/-!
# Two deposits into a pool

Two deposits into a pool that has a price can change places. A deposit neither changes the price nor
the incentives of the pool, so what the other one comes to is the same before and after it. All that
the two share are sums: the stakes of the ticks that bound both, the active liquidity, and the
liquidity of the position if it is the same one. These only grow, so what fits in the end fits on
the way; only the net sums of the shared ticks have to be covered.

## Main results

* `Operation.changePosition_touches`: what a change of a position does to each tick.
* `Operation.exists_changePosition`: when a change of a position succeeds.
* `Operation.deposit_swap`: two deposits into a priced pool can change places on the store.
-/

namespace RangeLedger

/-- The active liquidity can be changed on behalf of a range if the sum is one that it can have. -/
theorem Pool.exists_shiftActive {p : Pool} {lower upper : Tick} {delta : Dec}
    (h : p.InRange lower upper → 0 ≤ p.liquidity.raw + delta.raw ∧
      p.liquidity.raw + delta.raw < Dec.limit) :
    ∃ outcome, p.shiftActive lower upper delta = .ok outcome := by
  rw [shiftActive]
  by_cases hrange : p.InRange lower upper
  · obtain ⟨hnonneg, hfits⟩ := h hrange
    have hlimit : 0 < Dec.limit := by decide
    rw [if_pos hrange]
    refine ⟨_, bind_eq_ok_iff.2 ⟨⟨_, by omega, hfits⟩, bind_eq_ok_iff.2
      ⟨⟨_, by omega, hfits⟩, Dec.add_eq_ok_iff.2 rfl, ?_⟩, rfl⟩⟩
    rw [if_neg]
    simpa [Dec.isNegative] using hnonneg
  · rw [if_neg hrange]
    exact ⟨none, rfl⟩

/-! ### The ticks that a position touches -/

/-- With which edge a position ends at a tick, if it does. -/
def PositionKey.edgeAt (key : PositionKey) (t : Tick) : Option Edge :=
  if key.lower = t then some .lower else if key.upper = t then some .upper else none

/-- A tick after a change of a position that ends there with the given edge, or does not end
there. -/
def TickState.touch (t : TickState) (p : Pool) (now : Timestamp) (edge : Option Edge) (delta : Dec)
    (ids : OrderedSet IncentiveId) : Except LedgerError TickState :=
  match edge with
  | some edge => t.change p now edge delta ids
  | none => .ok t

/-- **Two positions touch a tick** in either order, where the stakes that both of them change are
covered. -/
theorem TickState.touch_swap {t t₁ t₂ : TickState} {p : Pool} {now : Timestamp}
    {edge edge' : Option Edge} {x y : Dec} {ids ids' : OrderedSet IncentiveId}
    (hx : 0 < x.raw) (hy : 0 < y.raw) (hids : ∀ id ∈ ids.toList, p.incentives.contains id = true)
    (hids' : ∀ id ∈ ids'.toList, p.incentives.contains id = true)
    (hcovered : edge.isSome → edge'.isSome → ∀ scope : Scope, scope.Counts ids →
      scope.Counts ids' → (t.stakeFor scope).Covered)
    (h : t.touch p now edge x ids = .ok t₁) (h' : t₁.touch p now edge' y ids' = .ok t₂) :
    ∃ k, t.touch p now edge' y ids' = .ok k ∧ k.touch p now edge x ids = .ok t₂ := by
  cases edge with
  | none =>
    cases h
    exact ⟨t₂, h', rfl⟩
  | some edge =>
    cases edge' with
    | none =>
      cases h'
      exact ⟨t, rfl, h⟩
    | some edge' => exact change_swap hx hy (hcovered rfl rfl) hids hids' h h'

/-- The active liquidity of a pool plays no part for its ticks. -/
theorem TickState.touch_withLiquidity (t : TickState) (p : Pool) (x : Dec) (now : Timestamp)
    (edge : Option Edge) (delta : Dec) (ids : OrderedSet IncentiveId) :
    t.touch { p with liquidity := x } now edge delta ids = t.touch p now edge delta ids := by
  cases edge <;> rfl

variable {s s' s₁ s₂ : Store} {now : Timestamp} {position : Position} {delta : Dec} {p : Pool}

namespace Operation

/-- **What a change of a position does to the ticks of its pool**: it touches each of them once, and
keeps those at which it ends. -/
theorem changePosition_touches (hp : s.pools.get? position.key.pool = some p)
    (hordered : position.key.lower < position.key.upper)
    (h : (changePosition now position delta).run s = (.ok (), s')) :
    (∀ t, (s.tickAt position.key.pool t).touch p now (position.key.edgeAt t) delta
        position.incentives = .ok (s'.tickAt position.key.pool t)) ∧
      (∀ t, ((s'.ticksOf position.key.pool).get? t).isSome =
        ((position.key.edgeAt t).isSome || ((s.ticksOf position.key.pool).get? t).isSome)) ∧
      (s'.ticks.get? position.key.pool).isSome = true := by
  obtain ⟨q, atLower, atUpper, outcome, liquidity, hq, hlower, hupper, -, -, rfl⟩ :=
    changePosition_eq_ok_iff.1 h
  obtain rfl : p = q := Option.some.inj (hp.symm.trans hq)
  have hne : position.key.lower ≠ position.key.upper := fun heq =>
    absurd hordered (heq ▸ Int.lt_irrefl position.key.lower.val)
  rw [Store.tickAt_setTick, if_neg fun hat => hne hat.2] at hupper
  -- the ticks are written beneath the changes of the pool and of the position
  obtain ⟨mid, hmid⟩ : ∃ mid, Storage.setTick (Storage.setTick s position.key.pool
    position.key.lower atLower) position.key.pool position.key.upper atUpper = mid := ⟨_, rfl⟩
  rw [hmid]
  have hticks : ((mid.keepPool outcome).keepPosition
      { position with liquidity := liquidity }).ticks = mid.ticks := by
    rw [Store.keepPosition]
    cases outcome <;> split <;> rfl
  have hticksOf : ((mid.keepPool outcome).keepPosition
      { position with liquidity := liquidity }).ticksOf position.key.pool =
        mid.ticksOf position.key.pool := by
    rw [Store.ticksOf, Store.ticksOf, hticks]
  refine ⟨fun t => ?_, fun t => ?_, ?_⟩
  · rw [Store.tickAt_congr hticksOf, ← hmid, Store.tickAt_setTick, Store.tickAt_setTick,
      PositionKey.edgeAt]
    by_cases hatLower : position.key.lower = t
    · have hatUpper : position.key.upper ≠ t := fun heq => hne (hatLower.trans heq.symm)
      subst hatLower
      simpa only [TickState.touch, true_and, hatUpper, if_true, if_false] using hlower
    · by_cases hatUpper : position.key.upper = t
      · subst hatUpper
        simpa only [TickState.touch, true_and, hatLower, if_true, if_false] using hupper
      · simp only [hatLower, hatUpper, and_false, if_false]
        rfl
  · rw [hticksOf, ← hmid, Store.ticksOf_setTick, if_pos rfl, Store.ticksOf_setTick, if_pos rfl,
      Map.get?_insert, Map.get?_insert, PositionKey.edgeAt]
    by_cases hatLower : position.key.lower = t <;> by_cases hatUpper : position.key.upper = t <;>
      simp [hatLower, hatUpper]
  · rw [hticks, ← hmid]
    exact congrArg Option.isSome (Map.get?_insert_self _ _ _)

/-- **A change of a position succeeds** if every tick, the active liquidity and the position can
take it. -/
theorem exists_changePosition (hp : s.pools.get? position.key.pool = some p)
    (hordered : position.key.lower < position.key.upper)
    (hticks : ∀ t, ∃ state, (s.tickAt position.key.pool t).touch p now (position.key.edgeAt t) delta
      position.incentives = .ok state)
    (hactive : ∃ outcome, p.shiftActive position.key.lower position.key.upper delta = .ok outcome)
    (hliquidity : ∃ liquidity, position.liquidity.add delta = .ok liquidity) :
    ∃ s', (changePosition now position delta).run s = (.ok (), s') := by
  have hne : position.key.lower ≠ position.key.upper := fun heq =>
    absurd hordered (heq ▸ Int.lt_irrefl position.key.lower.val)
  obtain ⟨outcome, houtcome⟩ := hactive
  obtain ⟨liquidity, hadd⟩ := hliquidity
  obtain ⟨atLower, hlower⟩ := hticks position.key.lower
  obtain ⟨atUpper, hupper⟩ := hticks position.key.upper
  rw [PositionKey.edgeAt, if_pos rfl] at hlower
  rw [PositionKey.edgeAt, if_neg hne, if_pos rfl] at hupper
  refine ⟨_, changePosition_eq_ok_iff.2 ⟨p, atLower, atUpper, outcome, liquidity, hp, hlower, ?_,
    houtcome, hadd, rfl⟩⟩
  rw [Store.tickAt_setTick, if_neg fun hat => hne hat.2]
  exact hupper

/-! ### Deposits into a pool with a price -/

/-- A deposit into a pool with a price leaves the price to itself. -/
theorem deposit_priced_eq_ok_iff {c : Config} {d : Deposit} {r : Receipt}
    (hp : s.pools.get? d.pool = some p) (hpriced : p.isUnpriced = false) :
    (deposit now c d).run s = (.ok r, s') ↔
      p.checkRange c d.lower d.upper = .ok () ∧ p.checkIncentives d.incentives = .ok () ∧
        quote p d = .ok r ∧ ∃ position, s.Target d.key d.incentives position ∧
          (changePosition now position r.liquidity).run s = (.ok (), s') := by
  rw [deposit_eq_ok_iff]
  constructor
  · rintro ⟨found, q, s₁, position, hfound, hrange, hids, hs₁, hquote, htarget, hchange⟩
    obtain rfl : p = found := Option.some.inj (hp.symm.trans hfound)
    obtain ⟨hunpriced, -⟩ | ⟨-, rfl, rfl⟩ := hs₁
    · rw [hpriced] at hunpriced
      cases hunpriced
    · exact ⟨hrange, hids, hquote, position, htarget, hchange⟩
  · rintro ⟨hrange, hids, hquote, position, htarget, hchange⟩
    exact ⟨p, p, s, position, hp, hrange, hids, .inr ⟨hpriced, rfl, rfl⟩, hquote, htarget, hchange⟩

end Operation

namespace Store

/-- **What a deposit into a priced pool leaves**: the active liquidity and the position have gained
the new liquidity, and the ticks of the pool were touched. -/
structure Deposited (s : Store) (now : Timestamp) (p : Pool) (d : Deposit) (r : Receipt)
    (position : Position) (s' : Store) : Prop where
  positive : 0 < r.liquidity.raw
  pool : ∃ active, s'.pools.get? d.pool = some { p with liquidity := active } ∧
    active.raw = p.liquidity.raw + if p.InRange d.lower d.upper then r.liquidity.raw else 0
  position : ∃ liquidity, liquidity.raw = position.liquidity.raw + r.liquidity.raw ∧
    ∀ key, s'.positions.get? key =
      if d.key = key then some ⟨d.key, liquidity, d.incentives⟩ else s.positions.get? key
  touches : ∀ t, (s.tickAt d.pool t).touch p now (d.key.edgeAt t) r.liquidity d.incentives =
    .ok (s'.tickAt d.pool t)
  kept : ∀ t, ((s'.ticksOf d.pool).get? t).isSome =
    ((d.key.edgeAt t).isSome || ((s.ticksOf d.pool).get? t).isSome)
  listed : (s'.ticks.get? d.pool).isSome = true
  others : ∀ id, id ≠ d.pool → s'.AgreesOn id s

/-- The ticks that are kept for a pool, where some are. -/
theorem get?_ticks_of_isSome {id : PoolId} (h : (s.ticks.get? id).isSome = true) :
    s.ticks.get? id = some (s.ticksOf id) := by
  obtain ⟨ticks, hticks⟩ := Option.isSome_iff_exists.1 h
  rw [ticksOf, Map.getD, hticks, Option.getD_some]

/-- The ticks of a pool are the same if the same ones are kept and all of them read the same. -/
theorem ticksOf_ext {id : PoolId} (hticks : ∀ t, s.tickAt id t = s'.tickAt id t)
    (hkept : ∀ t, ((s.ticksOf id).get? t).isSome = ((s'.ticksOf id).get? t).isSome) :
    s.ticksOf id = s'.ticksOf id := by
  refine Map.ext_get? fun t => ?_
  have htick := hticks t
  have hsome := hkept t
  rw [tickAt, tickAt] at htick
  cases hfound : (s.ticksOf id).get? t with
  | none =>
    rw [hfound] at hsome
    exact (Option.isSome_eq_false_iff.1 hsome.symm |> Option.isNone_iff_eq_none.1).symm
  | some found =>
    rw [hfound] at hsome htick
    obtain ⟨found', hfound'⟩ := Option.isSome_iff_exists.1 hsome.symm
    rw [hfound'] at htick ⊢
    exact congrArg some htick

/-- There is one position that a request can be about. -/
theorem Target.unique {key : PositionKey} {ids : OrderedSet IncentiveId} {a b : Position}
    (ha : s.Target key ids a) (hb : s.Target key ids b) : a = b := by
  obtain ⟨hstored, -⟩ | ⟨hnone, rfl⟩ := ha <;> obtain ⟨hstored', -⟩ | ⟨hnone', rfl⟩ := hb
  · exact Option.some.inj (hstored.symm.trans hstored')
  · rw [hstored] at hnone'
    cases hnone'
  · rw [hstored'] at hnone
    cases hnone
  · rfl

namespace Deposited

variable {d e : Deposit} {r q : Receipt}

/-- The position that a later deposit is about is there before, with what it held then. -/
theorem target_before (h : s.Deposited now p d r position s')
    (htarget : s.Target d.key d.incentives position) {after : Position}
    (hafter : s'.Target e.key e.incentives after) :
    ∃ before, s.Target e.key e.incentives before ∧ after.liquidity.raw = before.liquidity.raw +
        (if d.key = e.key then r.liquidity.raw else 0) ∧
      (d.key = e.key → before = position ∧ e.incentives = d.incentives) := by
  obtain ⟨liquidity, hraw, hpositions⟩ := h.position
  have hstored := hpositions e.key
  by_cases hkey : d.key = e.key
  · rw [if_pos hkey] at hstored ⊢
    obtain ⟨hafter, hids⟩ | ⟨hnone, -⟩ := hafter
    · rw [hstored] at hafter
      cases hafter
      change d.incentives = e.incentives at hids
      exact ⟨position, hkey ▸ hids ▸ htarget, hraw, fun _ => ⟨rfl, hids.symm⟩⟩
    · rw [hstored] at hnone
      cases hnone
  · rw [if_neg hkey] at hstored ⊢
    rw [Target, hstored] at hafter
    exact ⟨after, hafter, (Int.add_zero _).symm, fun heq => absurd heq hkey⟩

/-- A position that can be asked for before a deposit can be asked for after it. -/
theorem target_after (h : s.Deposited now p d r position s') {before : Position}
    (hbefore : s.Target e.key e.incentives before)
    (hsame : d.key = e.key → before = position ∧ e.incentives = d.incentives) :
    ∃ after, s'.Target e.key e.incentives after ∧ after.liquidity.raw = before.liquidity.raw +
      (if d.key = e.key then r.liquidity.raw else 0) := by
  obtain ⟨liquidity, hraw, hpositions⟩ := h.position
  have hstored := hpositions e.key
  by_cases hkey : d.key = e.key
  · obtain ⟨rfl, hids⟩ := hsame hkey
    rw [if_pos hkey] at hstored ⊢
    exact ⟨_, .inl ⟨hstored, hids.symm⟩, hraw⟩
  · rw [if_neg hkey] at hstored ⊢
    refine ⟨before, ?_, (Int.add_zero _).symm⟩
    rw [Target, hstored]
    exact hbefore

/-- After a deposit every position holds something, if it did before. -/
theorem positionsHold (h : s.Deposited now p d r position s')
    (htarget : s.Target d.key d.incentives position) (hheld : s.PositionsHold) :
    s'.PositionsHold := by
  intro key held hstored
  obtain ⟨liquidity, hraw, hpositions⟩ := h.position
  have hpositive := h.positive
  rw [hpositions] at hstored
  split at hstored
  next =>
    have hbefore := htarget.liquidity_nonneg hheld
    cases hstored
    change 0 < liquidity.raw
    omega
  next => exact hheld key held hstored

/-- The positions that two deposits leave do not depend on their order. -/
theorem swap_positions {a b a' b' : Position} {s₃ : Store} {p₁ p₂ : Pool}
    (h : s.Deposited now p d r a s₁) (h' : s₁.Deposited now p₁ e q b' s₂)
    (hswapped : s.Deposited now p e q b s') (hswapped' : s'.Deposited now p₂ d r a' s₃)
    (hb : b'.liquidity.raw = b.liquidity.raw + if d.key = e.key then r.liquidity.raw else 0)
    (ha : a'.liquidity.raw = a.liquidity.raw + if e.key = d.key then q.liquidity.raw else 0)
    (hsame : d.key = e.key → b = a ∧ e.incentives = d.incentives) (key : PositionKey) :
    s₃.positions.get? key = s₂.positions.get? key := by
  obtain ⟨u, hu, hpositions⟩ := h.position
  obtain ⟨u', hu', hpositions'⟩ := h'.position
  obtain ⟨v, hv, hpositionsSwapped⟩ := hswapped.position
  obtain ⟨v', hv', hpositionsSwapped'⟩ := hswapped'.position
  rw [hpositions', hpositions, hpositionsSwapped', hpositionsSwapped]
  by_cases hsamekey : d.key = e.key
  · obtain ⟨rfl, hids⟩ := hsame hsamekey
    rw [if_pos hsamekey] at hb
    rw [if_pos hsamekey.symm] at ha
    obtain rfl : v' = u' := Dec.ext (by omega)
    rw [hsamekey, hids]
    split
    next => rfl
    next => rfl
  · rw [if_neg hsamekey] at hb
    rw [if_neg (Ne.symm hsamekey)] at ha
    obtain rfl : v' = u := Dec.ext (by omega)
    obtain rfl : v = u' := Dec.ext (by omega)
    by_cases hd : d.key = key
    · have he : e.key ≠ key := fun he => hsamekey (hd.trans he.symm)
      rw [if_pos hd, if_neg he, if_pos hd]
    · rw [if_neg hd, if_neg hd]

/-- Two deposits touch each tick of the pool in either order, where the stakes that both of them
change are covered. -/
theorem touches_swap {a b' : Position} {x : Dec} (hpool : e.pool = d.pool)
    (h : s.Deposited now p d r a s₁) (h' : s₁.Deposited now { p with liquidity := x } e q b' s₂)
    (hids : p.checkIncentives d.incentives = .ok ())
    (hids' : p.checkIncentives e.incentives = .ok ()) (t : Tick)
    (hcovered : (d.key.edgeAt t).isSome → (e.key.edgeAt t).isSome → ∀ scope : Scope,
      scope.Counts d.incentives → scope.Counts e.incentives →
        ((s.tickAt d.pool t).stakeFor scope).Covered) :
    ∃ state, (s.tickAt d.pool t).touch p now (e.key.edgeAt t) q.liquidity e.incentives =
        .ok state ∧
      state.touch p now (d.key.edgeAt t) r.liquidity d.incentives = .ok (s₂.tickAt d.pool t) := by
  refine TickState.touch_swap h.positive h'.positive (Pool.checkIncentives_eq_ok_iff.1 hids)
    (Pool.checkIncentives_eq_ok_iff.1 hids') hcovered (h.touches t) ?_
  have htouched := h'.touches t
  rw [hpool, TickState.touch_withLiquidity] at htouched
  exact htouched

/-- **Two deposits leave one store in both orders**, if they leave the ticks of the pool the
same. -/
theorem swap_eq {a b a' b' : Position} {s₃ : Store} {x y : Dec}
    (hpool : e.pool = d.pool) (h : s.Deposited now p d r a s₁)
    (h' : s₁.Deposited now { p with liquidity := x } e q b' s₂)
    (hswapped : s.Deposited now p e q b s')
    (hswapped' : s'.Deposited now { p with liquidity := y } d r a' s₃)
    (hx : x.raw = p.liquidity.raw + if p.InRange d.lower d.upper then r.liquidity.raw else 0)
    (hy : y.raw = p.liquidity.raw + if p.InRange e.lower e.upper then q.liquidity.raw else 0)
    (hb : b'.liquidity.raw = b.liquidity.raw + if d.key = e.key then r.liquidity.raw else 0)
    (ha : a'.liquidity.raw = a.liquidity.raw + if e.key = d.key then q.liquidity.raw else 0)
    (hsame : d.key = e.key → b = a ∧ e.incentives = d.incentives)
    (hticks : ∀ t, s₃.tickAt d.pool t = s₂.tickAt d.pool t) : s₃ = s₂ := by
  refine Store.ext_agreesOn fun id => ?_
  by_cases hid : id = d.pool
  · subst hid
    obtain ⟨z, hz, hzraw⟩ := h'.pool
    obtain ⟨z', hz', hzraw'⟩ := hswapped'.pool
    obtain rfl : z' = z := by
      change z.raw = x.raw + (if p.InRange e.lower e.upper then _ else _) at hzraw
      change z'.raw = y.raw + (if p.InRange d.lower d.upper then _ else _) at hzraw'
      exact Dec.ext (by omega)
    have hlisted := h'.listed
    have hkept := h'.kept
    have hkeptSwapped := hswapped.kept
    rw [hpool] at hz hlisted hkept hkeptSwapped
    refine ⟨hz'.trans hz.symm, ?_, fun key _ =>
      h.swap_positions h' hswapped hswapped' hb ha hsame key⟩
    rw [get?_ticks_of_isSome hswapped'.listed, get?_ticks_of_isSome hlisted]
    refine congrArg some (ticksOf_ext hticks fun t => ?_)
    rw [hswapped'.kept, hkeptSwapped, hkept, h.kept, Bool.or_left_comm]
  · have hid' : id ≠ e.pool := hpool ▸ hid
    exact (hswapped'.others id hid).trans <| (hswapped.others id hid').trans <|
      (h.others id hid).symm.trans (h'.others id hid').symm

end Deposited

end Store

namespace Operation

variable {c : Config} {d e : Deposit} {r q : Receipt}

/-- **A deposit into a priced pool**, on a store in which every position holds something. -/
theorem deposited_of_run (hp : s.pools.get? d.pool = some p) (hpriced : p.isUnpriced = false)
    (hheld : s.PositionsHold) (h : (deposit now c d).run s = (.ok r, s')) :
    p.checkRange c d.lower d.upper = .ok () ∧ p.checkIncentives d.incentives = .ok () ∧
      quote p d = .ok r ∧ ∃ position, s.Target d.key d.incentives position ∧
        s.Deposited now p d r position s' := by
  obtain ⟨hrange, hids, hquote, position, htarget, hchange⟩ :=
    (deposit_priced_eq_ok_iff hp hpriced).1 h
  refine ⟨hrange, hids, hquote, position, htarget, ?_⟩
  obtain ⟨_, _, _, _, _, _, hpositive, -⟩ := quote_eq_ok_iff.1 hquote
  have hkey := htarget.key_eq
  have hordered := (Pool.checkRange_eq_ok_iff.1 hrange).2.2.2.1
  obtain ⟨htouches, hkept, hlisted⟩ :=
    changePosition_touches (p := p) (by rw [hkey]; exact hp) (by rw [hkey]; exact hordered) hchange
  have heffect := changePosition_repositioned hchange
  have hframe (id : PoolId) (hid : id ≠ d.pool) : s'.AgreesOn id s := by
    have hframe := Script.WorksOn.run_frame (deposit_worksOn now c d) hid s
    have hstore : ((deposit now c d).run s).2 = s' := by rw [h]
    rw [← hstore]
    exact hframe
  rw [hkey] at htouches hkept hlisted
  rw [htarget.incentives_eq] at htouches
  refine ⟨hpositive, ?_, ?_, htouches, hkept, hlisted, hframe⟩
  · obtain ⟨found, active, hfound, hactive, hpools⟩ := heffect.pools
    rw [hkey] at hfound hactive
    obtain rfl : p = found := Option.some.inj (hp.symm.trans hfound)
    exact ⟨active, (hpools d.pool).trans (if_pos (by rw [hkey]; rfl)), hactive⟩
  · obtain ⟨liquidity, hadd, -, hpositions⟩ := heffect.liquidity
    have hraw := Dec.add_eq_ok_iff.1 hadd
    have hbefore := htarget.liquidity_nonneg hheld
    have hzero : ¬liquidity.isZero := by
      simp only [Dec.isZero, beq_iff_eq]
      omega
    refine ⟨liquidity, hraw, fun key => ?_⟩
    rw [hpositions, if_neg hzero, hkey, htarget.incentives_eq]

/-- **A deposit into a priced pool is accepted** if its ticks, the active liquidity and its position
can take the liquidity. -/
theorem exists_deposit (hp : s.pools.get? d.pool = some p) (hpriced : p.isUnpriced = false)
    (hrange : p.checkRange c d.lower d.upper = .ok ())
    (hids : p.checkIncentives d.incentives = .ok ()) (hquote : quote p d = .ok r)
    (htarget : s.Target d.key d.incentives position)
    (hticks : ∀ t, ∃ state, (s.tickAt d.pool t).touch p now (d.key.edgeAt t) r.liquidity
      d.incentives = .ok state)
    (hactive : p.InRange d.lower d.upper → 0 ≤ p.liquidity.raw + r.liquidity.raw ∧
      p.liquidity.raw + r.liquidity.raw < Dec.limit)
    (hliquidity : -Dec.limit ≤ position.liquidity.raw + r.liquidity.raw ∧
      position.liquidity.raw + r.liquidity.raw < Dec.limit) :
    ∃ s', (deposit now c d).run s = (.ok r, s') := by
  have hkey := htarget.key_eq
  have hordered := (Pool.checkRange_eq_ok_iff.1 hrange).2.2.2.1
  obtain ⟨s', hchange⟩ : ∃ s', (changePosition now position r.liquidity).run s = (.ok (), s') := by
    refine exists_changePosition (p := p) ?_ ?_ ?_ ?_ ⟨⟨_, hliquidity.1, hliquidity.2⟩,
      Dec.add_eq_ok_iff.2 rfl⟩
    · rw [hkey]
      exact hp
    · rw [hkey]
      exact hordered
    · rw [hkey, htarget.incentives_eq]
      exact hticks
    · rw [hkey]
      exact Pool.exists_shiftActive hactive
  exact ⟨s', (deposit_priced_eq_ok_iff hp hpriced).2
    ⟨hrange, hids, hquote, position, htarget, hchange⟩⟩

section Swap

variable {a b b' : Position} {x : Dec} (hpriced : p.isUnpriced = false) (hheld : s.PositionsHold)
  (hfirst : s.Deposited now p d r a s₁)
  (hsecond : s₁.Deposited now { p with liquidity := x } e q b' s₂)
  (hx : x.raw = p.liquidity.raw + if p.InRange d.lower d.upper then r.liquidity.raw else 0)
  (hraw : b'.liquidity.raw = b.liquidity.raw + if d.key = e.key then r.liquidity.raw else 0)

include hpriced hheld hfirst hsecond hx hraw

/-- **The second of two deposits is accepted without the first**: what the active liquidity and its
position come to with both is as much as they can hold. -/
theorem exists_deposit_before (hp : s.pools.get? e.pool = some p) (hactive : 0 ≤ p.liquidity.raw)
    (hrange : p.checkRange c e.lower e.upper = .ok ())
    (hids : p.checkIncentives e.incentives = .ok ()) (hquote : quote p e = .ok q)
    (hb : s.Target e.key e.incentives b)
    (hticks : ∀ t, ∃ state, (s.tickAt e.pool t).touch p now (e.key.edgeAt t) q.liquidity
      e.incentives = .ok state) :
    ∃ k, (deposit now c e).run s = (.ok q, k) := by
  have hr := hfirst.positive
  have hq := hsecond.positive
  have hbefore := hb.liquidity_nonneg hheld
  have hlimit : 0 < Dec.limit := by decide
  obtain ⟨z, -, hz⟩ := hsecond.pool
  change z.raw = x.raw + (if p.InRange e.lower e.upper then q.liquidity.raw else 0) at hz
  have hzfits := z.lt_limit
  obtain ⟨u, hu, -⟩ := hsecond.position
  have hufits := u.lt_limit
  refine exists_deposit hp hpriced hrange hids hquote hb hticks (fun hin => ?_) ?_
  · rw [if_pos hin] at hz
    split at hx <;> omega
  · split at hraw <;> omega

/-- **The first of two deposits is accepted after the second**, for the same reason. -/
theorem exists_deposit_after {k : Store} {y : Dec} {a' : Position} (hactive : 0 ≤ p.liquidity.raw)
    (hrange : p.checkRange c d.lower d.upper = .ok ())
    (hids : p.checkIncentives d.incentives = .ok ()) (hquote : quote p d = .ok r)
    (ha : s.Target d.key d.incentives a) (hsame : d.key = e.key → b = a)
    (hk : k.pools.get? d.pool = some { p with liquidity := y })
    (hy : y.raw = p.liquidity.raw + if p.InRange e.lower e.upper then q.liquidity.raw else 0)
    (ha' : k.Target d.key d.incentives a')
    (hraw' : a'.liquidity.raw = a.liquidity.raw + if e.key = d.key then q.liquidity.raw else 0)
    (hticks : ∀ t, ∃ state, (k.tickAt d.pool t).touch p now (d.key.edgeAt t) r.liquidity
      d.incentives = .ok state) :
    ∃ s₃, (deposit now c d).run k = (.ok r, s₃) := by
  have hr := hfirst.positive
  have hq := hsecond.positive
  have hbefore := ha.liquidity_nonneg hheld
  have hlimit : 0 < Dec.limit := by decide
  obtain ⟨z, -, hz⟩ := hsecond.pool
  change z.raw = x.raw + (if p.InRange e.lower e.upper then q.liquidity.raw else 0) at hz
  have hzfits := z.lt_limit
  obtain ⟨u, hu, -⟩ := hfirst.position
  have hufits := u.lt_limit
  obtain ⟨u', hu', -⟩ := hsecond.position
  have hufits' := u'.lt_limit
  refine exists_deposit hk hpriced hrange hids hquote ha' (fun t => ?_) (fun hin => ?_) ?_
  · obtain ⟨state, hstate⟩ := hticks t
    rw [TickState.touch_withLiquidity]
    exact ⟨state, hstate⟩
  · have hin : p.InRange d.lower d.upper := hin
    rw [if_pos hin] at hx
    have hmore : 0 ≤ if p.InRange e.lower e.upper then q.liquidity.raw else 0 := by
      split <;> omega
    change 0 ≤ y.raw + r.liquidity.raw ∧ y.raw + r.liquidity.raw < Dec.limit
    omega
  · by_cases hkey : d.key = e.key
    · obtain rfl := hsame hkey
      rw [if_pos hkey] at hraw
      rw [if_pos hkey.symm] at hraw'
      omega
    · rw [if_neg (Ne.symm hkey)] at hraw'
      omega

end Swap

/-- **Two deposits into a priced pool can change places on the store**, at one time. -/
theorem deposit_swap (hp : s.pools.get? d.pool = some p) (hpriced : p.isUnpriced = false)
    (hpool : e.pool = d.pool) (hactive : 0 ≤ p.liquidity.raw)
    (hheld : s.PositionsHold)
    (hcovered : ∀ t, (d.key.edgeAt t).isSome → (e.key.edgeAt t).isSome → ∀ scope : Scope,
      scope.Counts d.incentives → scope.Counts e.incentives →
        ((s.tickAt d.pool t).stakeFor scope).Covered)
    (h : (deposit now c d).run s = (.ok r, s₁)) (h' : (deposit now c e).run s₁ = (.ok q, s₂)) :
    ∃ k, (deposit now c e).run s = (.ok q, k) ∧ (deposit now c d).run k = (.ok r, s₂) := by
  obtain ⟨hrange, hids, hquote, a, ha, hfirst⟩ := deposited_of_run hp hpriced hheld h
  obtain ⟨x, hp₁, hx⟩ := hfirst.pool
  rw [← hpool] at hp₁
  obtain ⟨hrange', hids', hquote', b', hb', hsecond⟩ :=
    deposited_of_run hp₁ hpriced (hfirst.positionsHold ha hheld) h'
  obtain ⟨b, hb, hraw, hsame⟩ := hfirst.target_before ha hb'
  have htouches (t : Tick) := hfirst.touches_swap hpool hsecond hids hids' t (hcovered t)
  -- the second deposit comes first
  have hp' : s.pools.get? e.pool = some p := hpool ▸ hp
  obtain ⟨k, hk⟩ := exists_deposit_before hpriced hheld hfirst hsecond hx hraw hp' hactive hrange'
    hids' hquote' hb fun t => hpool ▸ (htouches t).imp fun _ => And.left
  obtain ⟨-, -, -, b₁, hb₁, hswapped⟩ := deposited_of_run hp' hpriced hheld hk
  obtain rfl : b₁ = b := hb₁.unique hb
  obtain ⟨y, hpk, hy⟩ := hswapped.pool
  rw [hpool] at hpk
  obtain ⟨a', ha', hraw'⟩ := hswapped.target_after ha fun hkey =>
    ⟨(hsame hkey.symm).1.symm, (hsame hkey.symm).2.symm⟩
  have hback (t : Tick) : (k.tickAt d.pool t).touch p now (d.key.edgeAt t) r.liquidity
      d.incentives = .ok (s₂.tickAt d.pool t) := by
    obtain ⟨state, hstate, hback⟩ := htouches t
    have htouched := hswapped.touches t
    rw [hpool, hstate] at htouched
    cases htouched
    exact hback
  -- the first deposit follows
  obtain ⟨s₃, hs₃⟩ := exists_deposit_after hpriced hheld hfirst hsecond hx hraw hactive
    hrange hids hquote ha (fun hkey => (hsame hkey).1) hpk hy ha' hraw' fun t => ⟨_, hback t⟩
  obtain ⟨-, -, -, a₁, ha₁, hswapped'⟩ :=
    deposited_of_run hpk hpriced (hswapped.positionsHold hb hheld) hs₃
  obtain rfl : a₁ = a' := ha₁.unique ha'
  refine ⟨k, hk, ?_⟩
  rw [hs₃, hfirst.swap_eq hpool hsecond hswapped hswapped' hx hy hraw hraw' hsame fun t => ?_]
  have htouched := hswapped'.touches t
  rw [TickState.touch_withLiquidity, hback t] at htouched
  exact (Except.ok.inj htouched).symm

end Operation

end RangeLedger
