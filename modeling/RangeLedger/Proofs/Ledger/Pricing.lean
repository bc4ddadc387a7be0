import RangeLedger.Proofs.Ledger.FirstDeposit
import RangeLedger.Proofs.Operation.Pools

/-!
# A pool is priced once

The price of a pool comes from the first deposit that is accepted on it. A deposit that is refused
leaves the pool without a price, so the next one sets it. From then on nothing that is asked of the
ledger changes the price, and withdrawing all positions does not take it away; only trading moves
it, which is not asked of the ledger but done to its store. That a pool has a price can be seen from
its price, because the square root of a first price is never zero: the least price, one last digit,
has a root of nine digits.

## Main results

* `Action.continues`: whatever is asked of the ledger, every pool continues.
* `Ledger.unopened_or_opens`: a run is without a first deposit, or it is split by it.
* `Ledger.priced_at_most_once`: a pool has no price, and then one price.
-/

namespace RangeLedger

/-- **A request keeps every pool**, whether it is accepted or refused. -/
theorem Request.continues {α : Type} (r : Request α) (l : Ledger) :
    l.store.Continues (r.call.run l).2.store := by
  rcases hrun : r.call.run l with ⟨e | a, l'⟩
  · rw [(Request.refused_by hrun).1]
    exact .refl _
  obtain ⟨hsettled, -⟩ := Request.settled hrun
  cases r with
  | deposit d => exact Operation.deposit_continues hsettled
  | withdraw w => exact Operation.withdraw_continues hsettled
  | crossTick id t => exact Operation.crossTick_continues hsettled
  | addIncentive id incentive => exact Operation.addIncentive_continues hsettled
  | changeTick id t edge delta ids => exact Operation.changeTick_continues hsettled

namespace Action

/-- **One action**: every pool is continued. -/
theorem continues (a : Action) (l : Ledger) : l.store.Continues (a.apply l).store := by
  cases a with
  | request r => exact r.continues l
  | setTick id t state => exact Store.continues_of_pools rfl
  | setTime time => exact .refl _

/-- **The deposit that opens a pool** leaves it with a price whose square root is positive. -/
theorem exists_price {a : Action} {id : PoolId} {l : Ledger} (h : a.Opens id l)
    (hprice : l.store.priceOf id = some Pool.noPrice) :
    ∃ q, (a.apply l).store.pools.get? id = some q ∧ 0 < q.sqrtPrice.raw ∧
      q.isUnpriced = false := by
  cases a with
  | request r =>
    cases r with
    | deposit d =>
      obtain ⟨rfl, receipt, l', hrun⟩ := h
      obtain ⟨hsettled, -⟩ := Request.settled (r := .deposit d) hrun
      change ∃ q, ((Ledger.deposit d).run l).2.store.pools.get? d.pool = some q ∧ _
      rw [hrun]
      exact Operation.deposit_opens hsettled hprice
    | _ => cases h
  | setTick id t state => cases h
  | setTime time => cases h

end Action

namespace Ledger

variable {l : Ledger} {id : PoolId}

/-- Actions and then more of them are all of them together. -/
theorem afterActions_append (l : Ledger) (actions actions' : List Action) :
    l.afterActions (actions ++ actions') = (l.afterActions actions).afterActions actions' :=
  List.foldl_append

/-- **Between any two moments** every pool continues. -/
theorem continues_after (l : Ledger) (actions : List Action) :
    l.store.Continues (l.afterActions actions).store := by
  induction actions generalizing l with
  | nil => exact .refl _
  | cons a rest ih => exact (a.continues l).trans (ih (a.apply l))

/-- No deposit is accepted in the first part of a run in which none is. -/
theorem unopened_of_append {before rest : List Action} (h : Unopened id l (before ++ rest)) :
    Unopened id l before := by
  induction before generalizing l with
  | nil => trivial
  | cons a before ih => exact ⟨h.1, ih h.2⟩

/-- **A run is split by the first deposit** that is accepted on a pool, unless none is. -/
theorem unopened_or_opens (id : PoolId) (l : Ledger) (actions : List Action) :
    Unopened id l actions ∨ ∃ before a rest, actions = before ++ a :: rest ∧
      Unopened id l before ∧ a.Opens id (l.afterActions before) := by
  induction actions generalizing l with
  | nil => exact .inl trivial
  | cons a rest ih =>
    by_cases hopens : a.Opens id l
    · exact .inr ⟨[], a, rest, rfl, trivial, hopens⟩
    · obtain hrest | ⟨before, b, behind, rfl, hbefore, hb⟩ := ih (a.apply l)
      · exact .inl ⟨hopens, hrest⟩
      · exact .inr ⟨a :: before, b, behind, rfl, ⟨hopens, hbefore⟩, hb⟩

/-- **A pool is priced at most once.** Start from a pool without a price, and let anything be asked
of the ledger. Between any two moments the pool keeps its number, its account, its tokens, its
spacing, the time of its creation and its incentives. Either no deposit on it was accepted, and it
had no price at any moment; or the run is split by the first deposit that was accepted on it. Up to
that deposit it had no price at any moment; and at every moment from then on it has one and the same
price, with a positive square root. -/
theorem priced_at_most_once {p : Pool} (hp : l.store.pools.get? id = some p)
    (hunpriced : p.isUnpriced = true) (actions : List Action) :
    (∀ before, before <+: actions →
      ∃ q q', (l.afterActions before).store.pools.get? id = some q ∧
        (l.afterActions actions).store.pools.get? id = some q' ∧
        p.Continues q ∧ q.Continues q') ∧
    ((Unopened id l actions ∧ ∀ before, before <+: actions →
        (l.afterActions before).store.priceOf id = some Pool.noPrice) ∨
      ∃ before a rest price, actions = before ++ a :: rest ∧
        a.Opens id (l.afterActions before) ∧
        (∀ done, done <+: before →
          (l.afterActions done).store.priceOf id = some Pool.noPrice) ∧
        0 < price.2.raw ∧
        ∀ done, done <+: rest →
          ∃ q, (l.afterActions (before ++ a :: done)).store.pools.get? id = some q ∧
            q.price = price ∧ q.isUnpriced = false) := by
  have hprice : l.store.priceOf id = some Pool.noPrice := by
    rw [Store.priceOf_of_get? hp, Pool.isUnpriced_iff.1 hunpriced]
  have hwaiting {done before : List Action} (hbefore : Unopened id l before)
      (hdone : done <+: before) : (l.afterActions done).store.priceOf id = some Pool.noPrice := by
    obtain ⟨rest, rfl⟩ := hdone
    exact noPrice_after (unopened_of_append hbefore) hprice
  constructor
  · rintro before ⟨rest, rfl⟩
    obtain ⟨q, hq, hpq⟩ := l.continues_after before id p hp
    obtain ⟨q', hq', hqq'⟩ := (l.afterActions before).continues_after rest id q hq
    rw [← afterActions_append] at hq'
    exact ⟨q, q', hq, hq', hpq, hqq'⟩
  · obtain hunopened | ⟨before, a, rest, rfl, hbefore, hopens⟩ := unopened_or_opens id l actions
    · exact .inl ⟨hunopened, fun _ => hwaiting hunopened⟩
    · obtain ⟨o, ho, hpositive, hpriced⟩ :=
        Action.exists_price hopens (hwaiting hbefore (List.prefix_refl before))
      refine .inr ⟨before, a, rest, o.price, rfl, hopens, fun _ => hwaiting hbefore, hpositive,
        fun done _ => ?_⟩
      -- whatever was done after the deposit, the pool that it left has continued
      obtain ⟨q, hq, hoq⟩ :=
        (a.apply (l.afterActions before)).continues_after done id o ho
      have hsame := hoq.price hpriced
      refine ⟨q, ?_, hsame, (Pool.isUnpriced_congr hsame).trans hpriced⟩
      rw [afterActions_append]
      exact hq

end Ledger

namespace Sample

/-- A deposit that is refused, one that is accepted, and the withdrawal of all of it. -/
def emptied : List Action :=
  [.request (.deposit (deposit 0 500 (-10) 10)), .request (.deposit (deposit 500 500 (-10) 10)),
    .request (.withdraw ⟨pool.id, owner, tick (-10), tick 10,
      Dec.wrap 1_000_300_019_998_998_498_699_621, Table.empty⟩)]

end Sample

/-- A pool keeps its price when all that was deposited is withdrawn. -/
theorem Ledger.priced_at_most_once_sample :
    Sample.ledger.store.pools.get? Sample.pool.id = some Sample.pool ∧
      Sample.pool.isUnpriced = true ∧
      ∃ q, (Sample.ledger.afterActions Sample.emptied).store.pools.get? Sample.pool.id = some q ∧
        q.liquidity = Dec.zero ∧ q.address = Sample.pool.address ∧ q.isUnpriced = false := by
  have hp : Sample.ledger.store.pools.get? Sample.pool.id = some Sample.pool := by rfl
  have hunpriced : Sample.pool.isUnpriced = true := by decide
  obtain ⟨hcontinues, -⟩ := Ledger.priced_at_most_once hp hunpriced Sample.emptied
  obtain ⟨_, q, -, hq, hfirst, hrest⟩ := hcontinues [] List.nil_prefix
  have hempty : ((Sample.ledger.afterActions Sample.emptied).store.pools.get? Sample.pool.id).all
      (fun q => q.liquidity = Dec.zero ∧ q.isUnpriced = false) = true := by decide +kernel
  rw [hq] at hempty
  obtain ⟨hliquidity, hpriced⟩ := of_decide_eq_true hempty
  exact ⟨hp, hunpriced, q, hq, hliquidity, hrest.address.trans hfirst.address, hpriced⟩

end RangeLedger
