import RangeLedger.Proofs.Ledger.Commutation
import RangeLedger.Proofs.Ledger.Crossings
import RangeLedger.Proofs.Ledger.FirstDeposit

/-!
# Runs in single steps

A move of the price may cross many ticks and stop between two of them, so what is true after every
crossing cannot be told from what is true after every move. Here runs are taken apart further: each
crossing on the way of a move is a step of its own, and so is the last write of a move that arrives.
The other steps are what is asked of a ledger, crossings by themselves among it.

## Main results

* `Step.clock_config_apply`: what a step does to the clock and the configuration.
* `Ledger.steps_of_moveTo`: a move is crossings on its way, and then at most one other step.
-/

namespace RangeLedger

/-! ### Steps -/

/-- One thing that is done to a ledger: something that is asked of it, or the last write of a move
that arrives. -/
inductive Step : Type 1 where
  | action (a : Action)
  /-- A pool takes a tick, a square root of the price and an active liquidity. -/
  | reprice (id : PoolId) (tick : Tick) (sqrtPrice liquidity : Dec)

namespace Step

variable {x : Step} {l : Ledger} {id : PoolId} {t : Tick}

/-- A crossing of a tick. -/
def cross (id : PoolId) (t : Tick) : Step := .action (.request (.crossTick id t))

/-- The ledger after a step, whether it was refused or not. -/
def apply (x : Step) (l : Ledger) : Ledger :=
  match x with
  | action a => a.apply l
  | reprice id tick sqrtPrice liquidity => ((Ledger.amendPool id fun p =>
      .ok { p with tick := tick, sqrtPrice := sqrtPrice, liquidity := liquidity }).run l).2

/-- A step is a crossing of a tick, and the ledger accepts it. -/
def Crosses (id : PoolId) (t : Tick) (l : Ledger) : Step → Prop
  | action (.request (.crossTick id' t')) =>
    id' = id ∧ t' = t ∧ ∃ net l', (Ledger.crossTick id' t').run l = (.ok net, l')
  | _ => False

/-- A step keeps a tick as it is given. -/
def Overwrites (id : PoolId) (t : Tick) : Step → Prop
  | action (.setTick id' t' _) => id' = id ∧ t' = t
  | _ => False

instance : (x : Step) → Decidable (x.Overwrites id t)
  | action (.setTick _ _ _) => inferInstanceAs (Decidable (_ ∧ _))
  | action (.request _) => .isFalse fun h => h
  | action (.setTime _) => .isFalse fun h => h
  | reprice _ _ _ _ => .isFalse fun h => h

/-- What is left of an accepted crossing. -/
theorem apply_of_crosses (h : x.Crosses id t l) :
    ∃ net, (Ledger.crossTick id t).run l = (.ok net, x.apply l) := by
  cases x with
  | action a =>
    cases a with
    | request r =>
      cases r with
      | crossTick id' t' =>
        obtain ⟨rfl, rfl, net, l', hrun⟩ := h
        refine ⟨net, hrun.trans (congrArg (Prod.mk _) ?_)⟩
        exact (congrArg Prod.snd hrun).symm
      | _ => cases h
    | _ => cases h
  | reprice id' tick sqrtPrice liquidity => cases h

/-- A crossing that gives an answer is an accepted one. -/
theorem crosses_of_isSome (h : ((Ledger.crossTick id t).run l).1.toOption.isSome = true) :
    (cross id t).Crosses id t l := by
  rcases hrun : (Ledger.crossTick id t).run l with ⟨e | net, l'⟩
  · rw [hrun] at h
    cases h
  · exact ⟨rfl, rfl, net, l', hrun⟩

/-- The last write of a move, if the pool is there. -/
theorem reprice_cases (id : PoolId) (tick : Tick) (sqrtPrice liquidity : Dec) (l : Ledger) :
    (reprice id tick sqrtPrice liquidity).apply l = l ∨ ∃ p, l.store.pools.get? id = some p ∧
      (reprice id tick sqrtPrice liquidity).apply l = { l with
        store := Storage.setPool l.store
          { p with tick := tick, sqrtPrice := sqrtPrice, liquidity := liquidity } } := by
  rw [apply]
  rcases hrun : (Ledger.amendPool id fun p =>
    .ok { p with tick := tick, sqrtPrice := sqrtPrice, liquidity := liquidity }).run l with
    ⟨outcome, l'⟩
  obtain hsame | ⟨p, amended, hp, heq, rfl⟩ := Ledger.amendPool_effect hrun
  · exact .inl hsame
  · cases heq
    exact .inr ⟨p, hp, rfl⟩

/-- The last write of a move, to a pool that is there. -/
theorem reprice_of_pool {p : Pool} (hp : l.store.pools.get? id = some p) (tick : Tick)
    (sqrtPrice liquidity : Dec) : (reprice id tick sqrtPrice liquidity).apply l = { l with
      store := Storage.setPool l.store
        { p with tick := tick, sqrtPrice := sqrtPrice, liquidity := liquidity } } := by
  have hrun : (Operation.pool id).run l.store = (.ok p, l.store) :=
    Operation.run_pool_eq_ok_iff.2 ⟨hp, rfl⟩
  have hpool : (Ledger.pool id).run l = (.ok p, l) := by
    change (((Operation.pool id).run l.store).1, l) = _
    rw [hrun]
  rw [apply, Ledger.amendPool, Call.run_bind, hpool]
  rfl

/-- No step changes the configuration, and only a setting of the clock changes the time. -/
theorem clock_config_apply (x : Step) (l : Ledger) : (x.apply l).config = l.config ∧
    ((x.apply l).clock = l.clock ∨ ∃ time, x = .action (.setTime time)) := by
  cases x with
  | action a =>
    cases a with
    | request r =>
      rw [apply, Action.apply]
      rcases hrun : r.call.run l with ⟨e | a, l'⟩
      · rw [(Request.refused_by hrun).1]
        exact ⟨rfl, .inl rfl⟩
      · obtain ⟨hclock, hconfig⟩ := Request.clock_config_of_ok hrun
        exact ⟨hconfig, .inl hclock⟩
    | setTick id t state => exact ⟨rfl, .inl rfl⟩
    | setTime time => exact ⟨rfl, .inr ⟨time, rfl⟩⟩
  | reprice id tick sqrtPrice liquidity =>
    obtain heq | ⟨p, -, heq⟩ := reprice_cases id tick sqrtPrice liquidity l
    · rw [heq]
      exact ⟨rfl, .inl rfl⟩
    · rw [heq]
      exact ⟨rfl, .inl rfl⟩

end Step

/-! ### Runs of steps -/

namespace Ledger

variable {l l' : Ledger} {id : PoolId} {t : Tick} {steps : List Step}

/-- The ledger after some steps. -/
def afterSteps (l : Ledger) (steps : List Step) : Ledger := steps.foldl (fun l x => x.apply l) l

/-- The first step comes first. -/
@[simp] theorem afterSteps_cons (l : Ledger) (x : Step) (steps : List Step) :
    l.afterSteps (x :: steps) = (x.apply l).afterSteps steps := rfl

/-- Steps and then more of them are all of them together. -/
theorem afterSteps_append (l : Ledger) (steps steps' : List Step) :
    l.afterSteps (steps ++ steps') = (l.afterSteps steps).afterSteps steps' :=
  List.foldl_append

/-- No step changes the configuration. -/
theorem config_afterSteps (l : Ledger) (steps : List Step) :
    (l.afterSteps steps).config = l.config := by
  induction steps generalizing l with
  | nil => rfl
  | cons x rest ih => rw [afterSteps_cons, ih, (x.clock_config_apply l).1]

/-! ### Moves of the price -/

/-- Crossing ticks one after another is the first of the crossings, one step each. -/
theorem steps_of_crossAll {dir : Direction} {path : List Tick} {liquidity : Dec}
    {outcome : Except LedgerError Dec}
    (h : (crossAll id dir path liquidity).run l = (outcome, l')) :
    ∃ done, done <+: path ∧ l' = l.afterSteps (done.map (Step.cross id)) := by
  induction path generalizing l liquidity with
  | nil =>
    cases h
    exact ⟨[], List.prefix_refl _, rfl⟩
  | cons t rest ih =>
    rw [crossAll, Call.run_bind] at h
    rcases hcross : (crossTick id t).run l with ⟨e | net, l₁⟩
    · rw [hcross] at h
      cases h
      rw [crossTick_eq_error hcross]
      exact ⟨[], List.nil_prefix, rfl⟩
    · have hstep : (Step.cross id t).apply l = l₁ := congrArg Prod.snd hcross
      rw [hcross] at h
      simp only [Call.run_bind, Call.run_liftMath] at h
      cases hcarry : dir.carry liquidity net with
      | error e =>
        rw [hcarry] at h
        cases h
        exact ⟨[t], (List.prefix_cons_inj t).2 List.nil_prefix, hstep.symm⟩
      | ok next =>
        rw [hcarry] at h
        obtain ⟨done, hdone, heq⟩ := ih h
        refine ⟨t :: done, (List.prefix_cons_inj t).2 hdone, ?_⟩
        rw [List.map_cons, afterSteps_cons, hstep, heq]

/-- **A move is made of steps**: it crosses the first ticks of its way in order, one step each, and
if it arrives one more step writes to the pool. -/
theorem steps_of_moveTo {target : Tick} {sqrtPrice : Except MathError Dec}
    {outcome : Except LedgerError (List Tick)}
    (h : (moveTo id target sqrtPrice).run l = (outcome, l')) :
    l' = l ∨ ∃ p done last, l.store.pools.get? id = some p ∧ done <+: l.store.way p target ∧
      (last = [] ∨ ∃ root liquidity, sqrtPrice = .ok root ∧
        last = [Step.reprice id target root liquidity]) ∧
      l' = l.afterSteps (done.map (Step.cross id) ++ last) := by
  obtain rfl | ⟨p, crossed, l₁, hp, hcross, hend⟩ := moveTo_cases h
  · exact .inl rfl
  obtain rfl : p.id = id := Table.key_of_get? hp
  obtain ⟨done, hdone, hsteps⟩ := steps_of_crossAll hcross
  obtain rfl | ⟨current, root, liquidity, -, hcurrent, hroot, hlast⟩ := hend
  · exact .inr ⟨p, done, [], hp, hdone, .inl rfl, by rw [List.append_nil, hsteps]⟩
  · refine .inr ⟨p, done, _, hp, hdone, .inr ⟨root, liquidity, hroot, rfl⟩, ?_⟩
    rw [afterSteps_append, ← hsteps, hlast]
    exact (Step.reprice_of_pool hcurrent _ _ _).symm

end Ledger

end RangeLedger
