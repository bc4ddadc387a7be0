import RangeLedger.Proofs.Ledger.Runs

/-!
# Crossings on the way of a move

A move of the price is made of crossings, and of a last write to the pool if it arrives. Where only
stakes and sums matter it is enough that crossings leave them alone. What crossings do change, the
accumulators and the values that ticks take of them, has to be followed from one crossing to the
next, and this module takes runs apart that far.

A move may stop between two crossings. It has then crossed the first ticks of its way, and none of
the others.

## Main results

* `Ledger.travelled_of_moveTo`: a move crosses the ticks of its way, or the first of them, in order.
* `Event.config_apply`: no event changes the configuration.
* `Ledger.store_after_steps`: the induction for properties of the store that crossings change.
-/

namespace RangeLedger

namespace Store

/-! ### Crossings one after another -/

/-- Ticks of a pool are crossed one after another, all at one time. -/
inductive Crosses (now : Timestamp) (mode : InactiveMode) (id : PoolId) :
    Store → List Tick → Store → Prop where
  | nil (s : Store) : Crosses now mode id s [] s
  | cons {s mid s' : Store} {t : Tick} {net : Dec} {rest : List Tick}
      (hfirst : (Operation.crossTick now mode id t).run s = (.ok net, mid))
      (hrest : Crosses now mode id mid rest s') : Crosses now mode id s (t :: rest) s'

variable {now : Timestamp} {mode : InactiveMode} {id : PoolId} {s s' : Store} {ticks : List Tick}

/-- What every crossing keeps is kept by crossings one after another. -/
theorem Crosses.invariant (inv : Store → Prop)
    (step : ∀ s s' t net, (Operation.crossTick now mode id t).run s = (.ok net, s') →
      inv s → inv s') (h : s.Crosses now mode id ticks s') (hs : inv s) : inv s' := by
  induction h with
  | nil => exact hs
  | cons hfirst _ ih => exact ih (step _ _ _ _ hfirst hs)

/-- Crossings one after another are crossings together. -/
theorem Crosses.recrossed (h : s.Crosses now mode id ticks s') : s.Recrossed s' :=
  h.invariant s.Recrossed
    (fun _ _ _ _ hrun hs => hs.trans (Operation.crossTick_recrossed hrun).1) (Recrossed.refl s)

/-- The ticks on the way from the current tick of a pool to a target, in the order of travel. -/
def way (s : Store) (p : Pool) (target : Tick) : List Tick :=
  (Direction.between p.tick target).path p.tick target (s.ticksOf p.id).keys

variable {p : Pool} {target : Tick}

/-- On the way are the kept ticks that lie between the current tick and the target. -/
theorem mem_way {t : Tick} : t ∈ s.way p target ↔ t ∈ (s.ticksOf p.id).keys ∧
    ((p.tick < t ∧ t ≤ target) ∨ (target < t ∧ t ≤ p.tick)) := by
  rw [way, Direction.between]
  simp only [Bounded.le_def, Bounded.lt_def]
  split
  next hup =>
    rw [Direction.mem_path_up, Bounded.le_def, Bounded.lt_def]
    exact and_congr_right fun _ => by omega
  next hdown =>
    rw [Direction.mem_path_down, Bounded.le_def, Bounded.lt_def]
    exact and_congr_right fun _ => by omega

/-- The way leads from tick to tick in one direction. -/
theorem pairwise_way :
    (s.way p target).Pairwise fun a b => if p.tick < target then a < b else b < a := by
  have hkeys : (s.ticksOf p.id).keys.Pairwise fun a b => a < b := by
    refine List.pairwise_map.2 ((s.ticksOf p.id).entries.sorted.imp fun hlt => ?_)
    rw [Bounded.compare_def] at hlt
    exact compare_lt_iff_lt.1 hlt
  rw [way, Direction.between]
  split
  next hup => exact hkeys.filter _
  next hdown => exact List.pairwise_reverse.2 (hkeys.filter _)

/-- **A move that stops has crossed what is nearer**: a kept tick that lies between the current tick
and one that was crossed was crossed too. -/
theorem mem_of_between {done : List Tick} (hdone : done <+: s.way p target) {near far : Tick}
    (hkept : near ∈ (s.ticksOf p.id).keys) (hfar : far ∈ done)
    (hbetween : (p.tick < near ∧ near < far) ∨ (far < near ∧ near ≤ p.tick)) : near ∈ done := by
  have hway := (mem_way.1 (hdone.subset hfar)).2
  simp only [Bounded.le_def, Bounded.lt_def] at hbetween hway
  have hnear : near ∈ s.way p target := mem_way.2 ⟨hkept, by
    simp only [Bounded.le_def, Bounded.lt_def]
    omega⟩
  obtain ⟨rest, hrest⟩ := hdone
  rw [← hrest] at hnear
  refine (List.mem_append.1 hnear).resolve_right fun hlater => ?_
  have hpair : (done ++ rest).Pairwise _ := hrest ▸ pairwise_way
  have horder := (List.pairwise_append.1 hpair).2.2 far hfar near hlater
  simp only [Bounded.lt_def] at horder
  split at horder <;> omega

end Store

namespace Ledger

variable {l l' : Ledger} {id : PoolId}

/-- What a move can leave of a store. -/
inductive Travelled (l : Ledger) (id : PoolId) (target : Tick) (sqrtPrice : Except MathError Dec) :
    Store → Prop where
  /-- Nothing, as when the pool is not there. -/
  | still : Travelled l id target sqrtPrice l.store
  /-- The move stops when it has crossed the first ticks of its way. -/
  | stopped {p : Pool} {done : List Tick} {s : Store} (hp : l.store.pools.get? id = some p)
      (hdone : done <+: l.store.way p target)
      (hcross : l.store.Crosses l.clock.now l.config.inactiveMode id done s) :
      Travelled l id target sqrtPrice s
  /-- The move arrives behind all of them. -/
  | arrived {p current : Pool} {mid : Store} {root liquidity : Dec}
      (hp : l.store.pools.get? id = some p)
      (hcross : l.store.Crosses l.clock.now l.config.inactiveMode id (l.store.way p target) mid)
      (hcurrent : mid.pools.get? id = some current) (hroot : sqrtPrice = .ok root) :
      Travelled l id target sqrtPrice (Storage.setPool mid
        { current with tick := target, sqrtPrice := root, liquidity := liquidity })

/-- Crossing ticks one after another crosses the first of them in order, and all of them unless it
is refused. -/
theorem crosses_of_crossAll {dir : Direction} {path : List Tick} {liquidity : Dec}
    {outcome : Except LedgerError Dec}
    (h : (crossAll id dir path liquidity).run l = (outcome, l')) :
    l'.clock = l.clock ∧ l'.config = l.config ∧ ∃ done, done <+: path ∧
      l.store.Crosses l.clock.now l.config.inactiveMode id done l'.store ∧
      ∀ after, outcome = .ok after → done = path := by
  induction path generalizing l liquidity with
  | nil =>
    cases h
    exact ⟨rfl, rfl, [], List.prefix_refl _, .nil _, fun _ _ => rfl⟩
  | cons t rest ih =>
    rw [crossAll, Call.run_bind] at h
    rcases hcross : (crossTick id t).run l with ⟨e | net, l₁⟩
    · rw [hcross] at h
      cases h
      rw [crossTick_eq_error hcross]
      exact ⟨rfl, rfl, [], List.nil_prefix, .nil _, fun _ hafter => by cases hafter⟩
    · rw [hcross] at h
      obtain ⟨s, metrics, hrun, rfl⟩ := crossTick_eq_ok hcross
      simp only [Call.run_bind, Call.run_liftMath] at h
      cases hcarry : dir.carry liquidity net with
      | error e =>
        -- the tick is crossed, although what it carries is refused
        rw [hcarry] at h
        cases h
        exact ⟨rfl, rfl, [t], List.prefix_cons_inj t |>.2 List.nil_prefix, .cons hrun (.nil _),
          fun _ hafter => by cases hafter⟩
      | ok next =>
        rw [hcarry] at h
        obtain ⟨hclock, hconfig, done, hdone, hrest, hall⟩ := ih h
        exact ⟨hclock, hconfig, t :: done, (List.prefix_cons_inj t).2 hdone, .cons hrun hrest,
          fun after hafter => congrArg (t :: ·) (hall after hafter)⟩

/-- **A move** crosses the ticks of its way in order. It stops where it is refused, and otherwise
arrives. -/
theorem travelled_of_moveTo {target : Tick} {sqrtPrice : Except MathError Dec}
    {outcome : Except LedgerError (List Tick)}
    (h : (moveTo id target sqrtPrice).run l = (outcome, l')) :
    l'.clock = l.clock ∧ l'.config = l.config ∧ Travelled l id target sqrtPrice l'.store := by
  obtain rfl | ⟨p, crossed, l₁, hp, hcross, hend⟩ := moveTo_cases h
  · exact ⟨rfl, rfl, .still⟩
  obtain rfl : p.id = id := Table.key_of_get? hp
  obtain ⟨hclock, hconfig, done, hdone, hmid, hall⟩ := crosses_of_crossAll hcross
  obtain rfl | ⟨current, root, liquidity, rfl, hcurrent, hroot, rfl⟩ := hend
  · exact ⟨hclock, hconfig, .stopped hp hdone hmid⟩
  · rw [hall liquidity rfl] at hmid
    exact ⟨hclock, hconfig, .arrived hp hmid hcurrent hroot⟩

end Ledger

/-! ### The clock and the configuration -/

namespace Event

/-- The clock and the configuration after an event: only the clock can be set. -/
theorem clock_config_apply (e : Event) (l : Ledger) :
    (e.apply l).config = l.config ∧
      ((e.apply l).clock = l.clock ∨ ∃ time, e = setTime time ∧ (e.apply l).clock = ⟨time⟩) := by
  cases e with
  | deposit d =>
    rw [apply]
    rcases hrun : (Ledger.deposit d).run l with ⟨cause | r, l'⟩
    · rw [Ledger.deposit_eq_error hrun]
      exact ⟨rfl, .inl rfl⟩
    · obtain ⟨_, _, _, _, -, -, -, rfl⟩ := Ledger.deposit_eq_ok hrun
      exact ⟨rfl, .inl rfl⟩
  | withdraw w =>
    rw [apply]
    rcases hrun : (Ledger.withdraw w).run l with ⟨cause | out, l'⟩
    · rw [(Ledger.withdraw_eq_error hrun).1]
      exact ⟨rfl, .inl rfl⟩
    · obtain ⟨_, _, _, _, -, -, -, rfl⟩ := Ledger.withdraw_eq_ok hrun
      exact ⟨rfl, .inl rfl⟩
  | cross id t =>
    rw [apply]
    rcases hrun : (Ledger.crossTick id t).run l with ⟨cause | net, l'⟩
    · rw [Ledger.crossTick_eq_error hrun]
      exact ⟨rfl, .inl rfl⟩
    · obtain ⟨_, _, -, rfl⟩ := Ledger.crossTick_eq_ok hrun
      exact ⟨rfl, .inl rfl⟩
  | addIncentive id incentive =>
    rw [apply]
    rcases hrun : (Ledger.addIncentive id incentive).run l with ⟨cause | u, l'⟩
    · rw [Ledger.addIncentive_eq_error hrun]
      exact ⟨rfl, .inl rfl⟩
    · obtain ⟨_, -, rfl⟩ := Ledger.addIncentive_eq_ok hrun
      exact ⟨rfl, .inl rfl⟩
  | move id target sqrtPrice =>
    rw [apply]
    rcases hrun : (Ledger.moveTo id target sqrtPrice).run l with ⟨outcome, l'⟩
    obtain ⟨hclock, hconfig, -⟩ := Ledger.travelled_of_moveTo hrun
    exact ⟨hconfig, .inl hclock⟩
  | setTime time => exact ⟨rfl, .inr ⟨time, rfl, rfl⟩⟩

/-- No event changes the configuration. -/
theorem config_apply (e : Event) (l : Ledger) : (e.apply l).config = l.config :=
  (e.clock_config_apply l).1

end Event

namespace Ledger

variable {l : Ledger}

/-- No event changes the configuration. -/
@[simp] theorem config_after (l : Ledger) (events : List Event) :
    (l.after events).config = l.config := by
  induction events generalizing l with
  | nil => rfl
  | cons e rest ih => rw [after_cons, ih, e.config_apply]

/-! ### Properties that crossings change -/

section

variable (inv : Store → Prop)
  (hdeposit : ∀ s s' now d r, (Operation.deposit now l.config d).run s = (.ok r, s') →
    inv s → inv s')
  (hwithdraw : ∀ s s' now w out, (Operation.withdraw now l.config w).run s = (.ok out, s') →
    inv s → inv s')
  (hcross : ∀ s s' now id t net,
    (Operation.crossTick now l.config.inactiveMode id t).run s = (.ok net, s') → inv s → inv s')
  (hincentive : ∀ s s' id incentive, (Operation.addIncentive id incentive).run s = (.ok (), s') →
    inv s → inv s')
  (harrive : ∀ (s : Store) (p : Pool) (target : Tick) (root liquidity : Dec),
    s.pools.get? p.id = some p → inv s →
    inv (Storage.setPool s { p with tick := target, sqrtPrice := root, liquidity := liquidity }))

include hdeposit hwithdraw hcross hincentive harrive

/-- **The induction for what crossings change.** A property of a store that deposits, withdrawals,
single crossings, new incentives and arrivals keep holds after every run, whatever the times. -/
theorem store_after_steps (h : inv l.store) (events : List Event) :
    inv (l.after events).store := by
  suffices hrun : (l.after events).config = l.config ∧ inv (l.after events).store from hrun.2
  refine after_invariant (fun l' => l'.config = l.config ∧ inv l'.store)
    (fun e l' (_ : True) hl' => ?_) ⟨rfl, h⟩ fun _ _ => trivial
  obtain ⟨hconfig, hl'⟩ := hl'
  refine ⟨(e.config_apply l').trans hconfig, ?_⟩
  have hmoves {id : PoolId} {target : Tick} {sqrtPrice : Except MathError Dec} {s : Store}
      (hs : ((Event.move id target sqrtPrice).apply l').store = s) : inv s := by
    rw [Event.apply] at hs
    rcases hmove : (moveTo id target sqrtPrice).run l' with ⟨outcome, l''⟩
    obtain ⟨-, -, htravelled⟩ := travelled_of_moveTo hmove
    rw [hmove] at hs
    subst hs
    have hcrosses {s : Store} {done : List Tick}
        (hdone : l'.store.Crosses l'.clock.now l'.config.inactiveMode id done s) : inv s :=
      hdone.invariant inv (fun s s' t net hrun => hcross s s' _ id t net (hconfig ▸ hrun)) hl'
    generalize l''.store = s at htravelled ⊢
    cases htravelled with
    | still => exact hl'
    | stopped _ _ hdone => exact hcrosses hdone
    | arrived _ hdone hcurrent _ =>
      obtain rfl := Table.key_of_get? hcurrent
      exact harrive _ _ _ _ _ hcurrent (hcrosses hdone)
  have heffect := e.effect_apply l'
  generalize hs : (e.apply l').store = s, (e.apply l').bank = bank at heffect ⊢
  cases heffect with
  | still => exact hl'
  | deposit hrun => exact hdeposit _ _ _ _ _ (hconfig ▸ hrun) hl'
  | withdraw hrun => exact hwithdraw _ _ _ _ _ (hconfig ▸ hrun) hl'
  | cross hrun => exact hcross _ _ _ _ _ _ (hconfig ▸ hrun) hl'
  | addIncentive hrun => exact hincentive _ _ _ _ hrun hl'
  | stopped => exact hmoves hs
  | moved => exact hmoves hs

end

end Ledger

end RangeLedger
