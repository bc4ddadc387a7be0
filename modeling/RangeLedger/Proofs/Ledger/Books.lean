import RangeLedger.Proofs.Ledger.ActiveLiquidity
import RangeLedger.Proofs.Ledger.Admission

/-!
# The books of positions

What a position holds can be told from the calls alone: it is what the accepted deposits under its
key have created less what the accepted withdrawals under its key have taken. Nothing is lost or
counted twice, whatever other calls come between and however many are refused. A position is stored
exactly as long as these books are not at nothing, and they are never below.

The incentives of a position never change while it is stored, so they are those that every accepted
call on it has named.

## Main results

* `Ledger.heldUnder_after`: the books of a run, from any ledger.
* `Ledger.incentives_eq_since`: a stored position has the incentives that calls on it named.
* `Ledger.position_books`: the two together, with what a position is filed under.
-/

namespace RangeLedger

/-! ### Books -/

namespace Store

/-- The liquidity that is held under a key, nothing if there is no position. -/
def heldUnder (s : Store) (key : PositionKey) : Int :=
  Table.share (fun p => p.liquidity.raw) (s.positions.get? key)

variable {s s' : Store}

/-- What is held under a key depends on the positions alone. -/
theorem heldUnder_congr (h : s'.positions = s.positions) (key : PositionKey) :
    s'.heldUnder key = s.heldUnder key := by
  rw [heldUnder, h, heldUnder]

/-- A change of a position books its liquidity under its key and nothing under the others. -/
theorem Repositioned.heldUnder_eq {position : Position} {delta : Dec}
    (h : s.Repositioned position delta s')
    (htarget : s.Target position.key position.incentives position) (key : PositionKey) :
    s'.heldUnder key = s.heldUnder key + if position.key = key then delta.raw else 0 := by
  obtain ⟨liquidity, hadd, -, hpositions⟩ := h.liquidity
  rw [heldUnder, hpositions]
  by_cases hkey : position.key = key
  · subst hkey
    have hraw := Dec.add_eq_ok_iff.1 hadd
    rw [if_pos rfl, if_pos rfl, heldUnder, htarget.share_eq (fun _ hp => hp)]
    split
    next hzero =>
      have hnone : liquidity.raw = 0 := by simpa [Dec.isZero] using hzero
      rw [Table.share_none]
      omega
    next => exact hraw
  · rw [if_neg hkey, if_neg hkey, Int.add_zero, heldUnder]

end Store

/-- What an event books under a key: the liquidity that a deposit creates or a withdrawal takes, if
it is accepted. -/
def Event.booked (key : PositionKey) (e : Event) (l : Ledger) : Int :=
  match e with
  | deposit d =>
    match (Ledger.deposit d).run l with
    | (.ok r, _) => if d.key = key then r.liquidity.raw else 0
    | (.error _, _) => 0
  | withdraw w =>
    match (Ledger.withdraw w).run l with
    | (.ok _, _) => if w.key = key then -w.liquidity.raw else 0
    | (.error _, _) => 0
  | cross _ _ | addIncentive _ _ | move _ _ _ | setTime _ => 0

/-- What a run books under a key. -/
def Ledger.booked (key : PositionKey) : Ledger → List Event → Int
  | _, [] => 0
  | l, e :: rest => e.booked key l + Ledger.booked key (e.apply l) rest

/-- **One event** changes what is held under a key by what it books. -/
theorem Event.heldUnder_apply {e : Event} (he : e.IsCall) (l : Ledger) (key : PositionKey) :
    (e.apply l).store.heldUnder key = l.store.heldUnder key + e.booked key l := by
  cases e with
  | deposit d =>
    rw [apply, booked]
    rcases hrun : (Ledger.deposit d).run l with ⟨cause | r, l'⟩
    · rw [Ledger.deposit_eq_error hrun]
      exact (Int.add_zero _).symm
    · obtain ⟨s, _, _, _, hs, -, -, rfl⟩ := Ledger.deposit_eq_ok hrun
      obtain ⟨_, _, s₁, position, -, -, hpriced, -, hkey, -, htarget, hchange⟩ :=
        Operation.deposit_effect hs
      dsimp only
      rw [hchange.heldUnder_eq htarget, Store.heldUnder_congr hpriced.positions_eq, hkey]
  | withdraw w =>
    rw [apply, booked]
    rcases hrun : (Ledger.withdraw w).run l with ⟨cause | out, l'⟩
    · rw [(Ledger.withdraw_eq_error hrun).1]
      exact (Int.add_zero _).symm
    · obtain ⟨s, _, _, _, hs, -, -, rfl⟩ := Ledger.withdraw_eq_ok hrun
      obtain ⟨_, position, _, -, -, hkey, hstored, hpositive, -, -, -, -, hchange⟩ :=
        Operation.withdraw_effect hs
      dsimp only
      rw [hchange.heldUnder_eq (.inl ⟨hstored, rfl⟩), hkey, Dec.raw_neg]
      rw [Dec.limit]
      omega
  | cross id t =>
    rw [apply, booked, Int.add_zero]
    rcases hrun : (Ledger.crossTick id t).run l with ⟨cause | net, l'⟩
    · rw [Ledger.crossTick_eq_error hrun]
    · obtain ⟨s, _, hs, rfl⟩ := Ledger.crossTick_eq_ok hrun
      exact Store.heldUnder_congr (Operation.crossTick_recrossed hs).1.positions key
  | addIncentive id incentive =>
    rw [apply, booked, Int.add_zero]
    rcases hrun : (Ledger.addIncentive id incentive).run l with ⟨cause | u, l'⟩
    · rw [Ledger.addIncentive_eq_error hrun]
    · obtain ⟨s, hs, rfl⟩ := Ledger.addIncentive_eq_ok hrun
      exact Store.heldUnder_congr (Operation.addIncentive_recrossed hs).positions key
  | move id target sqrtPrice => cases he
  | setTime time => exact (Int.add_zero _).symm

/-- **The books of a run**: what is held under a key changes by what the run books. -/
theorem Ledger.heldUnder_after {l : Ledger} {events : List Event} (hevents : ∀ e ∈ events, e.IsCall)
    (key : PositionKey) :
    (l.after events).store.heldUnder key = l.store.heldUnder key + l.booked key events := by
  induction events generalizing l with
  | nil => exact (Int.add_zero _).symm
  | cons e rest ih =>
    have hfirst := Event.heldUnder_apply (hevents e List.mem_cons_self) l key
    rw [after_cons, ih fun e' he' => hevents e' (List.mem_cons_of_mem e he'), hfirst, booked,
      Int.add_assoc]

/-! ### Incentives of a position -/

namespace Event

/-- An event is a deposit or a withdrawal under a key that names some incentives and is accepted. -/
def Accepted (key : PositionKey) (ids : OrderedSet IncentiveId) (e : Event) (l : Ledger) : Prop :=
  match e with
  | deposit d => d.key = key ∧ d.incentives = ids ∧ ∃ r l', (Ledger.deposit d).run l = (.ok r, l')
  | withdraw w =>
    w.key = key ∧ w.incentives = ids ∧ ∃ out l', (Ledger.withdraw w).run l = (.ok out, l')
  | cross _ _ | addIncentive _ _ | move _ _ _ | setTime _ => False

variable {e : Event} {l : Ledger} {key : PositionKey} {position position' : Position}

/-- A position that is stored after an accepted call on it has the incentives that the call
named. -/
theorem incentives_of_accepted {ids : OrderedSet IncentiveId} (h : e.Accepted key ids l)
    (hposition : (e.apply l).store.positions.get? key = some position) :
    position.incentives = ids := by
  cases e with
  | deposit d =>
    obtain ⟨rfl, rfl, r, l', hrun⟩ := h
    rw [apply, hrun] at hposition
    obtain ⟨s, _, _, _, hs, -, -, rfl⟩ := Ledger.deposit_eq_ok hrun
    obtain ⟨_, _, _, changed, -, -, -, -, hkey, hids, -, hchange⟩ := Operation.deposit_effect hs
    obtain ⟨-, heq⟩ | ⟨hne, -⟩ := hchange.stored_cases hposition
    · exact heq.trans hids
    · exact absurd hkey hne
  | withdraw w =>
    obtain ⟨rfl, rfl, out, l', hrun⟩ := h
    rw [apply, hrun] at hposition
    obtain ⟨s, _, _, _, hs, -, -, rfl⟩ := Ledger.withdraw_eq_ok hrun
    obtain ⟨_, changed, _, -, -, hstored, hids, -, -, -, hchange, -, -⟩ :=
      Operation.withdraw_eq_ok_iff.1 hs
    obtain ⟨-, heq⟩ | ⟨hne, -⟩ :=
      (Operation.changePosition_repositioned hchange).stored_cases hposition
    · exact heq.trans hids
    · exact absurd (Table.key_of_get? hstored) hne
  | cross _ _ => cases h
  | addIncentive _ _ => cases h
  | move _ _ _ => cases h
  | setTime _ => cases h

/-- **One event** leaves the incentives of a position that stays stored. -/
theorem incentives_apply (he : e.IsCall) (hbefore : l.store.positions.get? key = some position)
    (hafter : (e.apply l).store.positions.get? key = some position') :
    position'.incentives = position.incentives := by
  -- what an event leaves of this position, if it changes another one or none
  have hkept {s : Store} (hs : s.positions = l.store.positions)
      (hafter : s.positions.get? key = some position') :
      position'.incentives = position.incentives := by
    rw [hs, hbefore] at hafter
    exact congrArg Position.incentives (Option.some.inj hafter).symm
  have heffect := e.effect_apply l
  generalize (e.apply l).store = s, (e.apply l).bank = bank at heffect hafter
  cases heffect with
  | still => exact hkept rfl hafter
  | deposit hrun =>
    obtain ⟨_, _, s₁, changed, -, -, hpriced, -, -, -, htarget, hchange⟩ :=
      Operation.deposit_effect hrun
    obtain ⟨rfl, heq⟩ | ⟨-, hstored⟩ := hchange.stored_cases hafter
    · -- the deposit is on this position, which it found stored
      rw [← hpriced.positions_eq] at hbefore
      obtain ⟨hstored, -⟩ | ⟨hnone, -⟩ := htarget
      · obtain rfl := Option.some.inj (hstored.symm.trans hbefore)
        exact heq
      · rw [hnone] at hbefore
        cases hbefore
    · exact hkept hpriced.positions_eq hstored
  | withdraw hrun =>
    obtain ⟨_, changed, _, -, -, -, hstored, -, -, -, -, -, hchange⟩ :=
      Operation.withdraw_effect hrun
    obtain ⟨rfl, heq⟩ | ⟨-, hafter⟩ := hchange.stored_cases hafter
    · obtain rfl := Option.some.inj (hstored.symm.trans hbefore)
      exact heq
    · exact hkept rfl hafter
  | cross hrun => exact hkept (Operation.crossTick_recrossed hrun).1.positions hafter
  | addIncentive hrun => exact hkept (Operation.addIncentive_recrossed hrun).positions hafter
  | stopped => cases he
  | moved => cases he

end Event

namespace Ledger

variable {l : Ledger} {events : List Event} {key : PositionKey} {position position' : Position}

/-- **A run** leaves the incentives of a position that is stored all along. -/
theorem incentives_after (hevents : ∀ e ∈ events, e.IsCall)
    (hbefore : l.store.positions.get? key = some position)
    (hkept : ∀ done, done <+: events → (l.after done).store.positions.get? key ≠ none)
    (hafter : (l.after events).store.positions.get? key = some position') :
    position'.incentives = position.incentives := by
  induction events generalizing l position with
  | nil =>
    rw [after_nil, hbefore] at hafter
    exact congrArg Position.incentives (Option.some.inj hafter).symm
  | cons e rest ih =>
    -- the position is stored between the first event and the rest, so neither changes it
    obtain ⟨next, hnext⟩ : ∃ next, (e.apply l).store.positions.get? key = some next :=
      Option.ne_none_iff_exists'.1 (hkept [e] (by simp))
    have hrest := ih (fun e' he' => hevents e' (List.mem_cons_of_mem e he')) hnext
      (fun done hdone => hkept (e :: done) (List.cons_prefix_cons.2 ⟨rfl, hdone⟩)) hafter
    exact hrest.trans (Event.incentives_apply (hevents e List.mem_cons_self) hbefore hnext)

/-- **A stored position has the incentives that every accepted call on it named**, since there last
was no position under its key. -/
theorem incentives_eq_since (hevents : ∀ e ∈ events, e.IsCall)
    (hposition : (l.after events).store.positions.get? key = some position)
    {before rest : List Event} {e : Event} {ids : OrderedSet IncentiveId}
    (hsplit : events = before ++ e :: rest) (haccepted : e.Accepted key ids (l.after before))
    (hkept : ∀ done, done <+: rest →
      (l.after (before ++ e :: done)).store.positions.get? key ≠ none) :
    position.incentives = ids := by
  subst hsplit
  simp only [after_append, after_cons] at hposition hkept
  obtain ⟨first, hfirst⟩ := Option.ne_none_iff_exists'.1 (hkept [] List.nil_prefix)
  have hrest : ∀ e' ∈ rest, e'.IsCall := fun e' he' =>
    hevents e' (List.mem_append_right before (List.mem_cons_of_mem e he'))
  rw [incentives_after hrest hfirst hkept hposition]
  exact Event.incentives_of_accepted haccepted hfirst

/-- **The books of positions.** After every run of calls on a fresh ledger, and for every key, the
run has booked no less than nothing under the key, and a position is stored there exactly if it has
booked more. The position then holds just what was booked; its range and its incentives are admitted
by its pool and by the configuration; and its incentives are those that were named by every accepted
deposit and withdrawal on it, since there last was no position under the key. -/
theorem position_books (hl : l.store.IsFresh) (hevents : ∀ e ∈ events, e.IsCall)
    (key : PositionKey) :
    0 ≤ l.booked key events ∧
    ((∃ position, (l.after events).store.positions.get? key = some position) ↔
      0 < l.booked key events) ∧
    ∀ position, (l.after events).store.positions.get? key = some position →
      position.key = key ∧ position.liquidity.raw = l.booked key events ∧
      (l.after events).store.Admitted l.config key position.incentives ∧
      ∀ before e rest ids, events = before ++ e :: rest → e.Accepted key ids (l.after before) →
        (∀ done, done <+: rest →
          (l.after (before ++ e :: done)).store.positions.get? key ≠ none) →
        position.incentives = ids := by
  have hbooks : (l.after events).store.heldUnder key = l.booked key events := by
    have hnone : l.store.heldUnder key = 0 := by
      rw [Store.heldUnder, hl.positions]
      rfl
    rw [heldUnder_after hevents, hnone, Int.zero_add]
  have hbalanced := Store.balanced_after_trades hl fun e he => (hevents e he).isTrade
  rw [Store.heldUnder] at hbooks
  cases hfound : (l.after events).store.positions.get? key with
  | none =>
    rw [hfound, Table.share_none] at hbooks
    exact ⟨by omega, iff_of_false (fun ⟨_, h⟩ => nomatch h) (by omega), fun _ h => nomatch h⟩
  | some stored =>
    rw [hfound, Table.share_some] at hbooks
    have hpositive := (hbalanced.held key stored hfound).positive
    refine ⟨by omega, iff_of_true ⟨stored, rfl⟩ (by omega), fun position hposition => ?_⟩
    cases hposition
    exact ⟨Table.key_of_get? hfound, hbooks, Store.admitted_after hl events key _ hfound,
      fun before e rest ids hsplit haccepted hkept =>
        incentives_eq_since hevents hfound hsplit haccepted hkept⟩

end Ledger

namespace Sample

/-- Two deposits over neighbouring ranges, and a withdrawal of one unit from the first of them. -/
def partly : List Event :=
  neighbours ++ [.withdraw ⟨pool.id, owner, tick (-10), tick 10, Dec.one, Table.empty⟩]

/-- All of these are calls. -/
theorem isCall_partly : ∀ e ∈ partly, e.IsCall := by
  simp [partly, neighbours, Event.IsCall]

end Sample

/-- A position of which a part was withdrawn holds what its deposit created less that part. -/
theorem Ledger.position_books_sample :
    ∃ position, (Sample.ledger.after Sample.partly).store.positions.get?
        (Sample.deposit 500 500 (-10) 10).key = some position ∧
      position.liquidity.raw = 1000299019998998498699621 ∧
      position.incentives = Table.empty := by
  obtain ⟨-, hstored, hbooks⟩ := Ledger.position_books Sample.ledger_isFresh Sample.isCall_partly
    (Sample.deposit 500 500 (-10) 10).key
  have hbooked : Sample.ledger.booked (Sample.deposit 500 500 (-10) 10).key Sample.partly =
      1000299019998998498699621 := by decide +kernel
  obtain ⟨position, hposition⟩ := hstored.2 (by rw [hbooked]; decide)
  obtain ⟨-, hliquidity, -, hsince⟩ := hbooks position hposition
  obtain ⟨r, l', hrun, -⟩ : ∃ r l', (Ledger.deposit (Sample.deposit 500 500 (-10) 10)).run
      Sample.ledger = (.ok r, l') ∧ True := Call.exists_of_any (by decide +kernel)
  have hkept : ∀ done ∈ Sample.partly.tail.inits, ((Sample.ledger.after
      (.deposit (Sample.deposit 500 500 (-10) 10) :: done)).store.positions.get?
        (Sample.deposit 500 500 (-10) 10).key).isSome = true := by decide +kernel
  refine ⟨position, hposition, hliquidity.trans hbooked,
    hsince [] _ Sample.partly.tail _ rfl ⟨rfl, rfl, r, l', hrun⟩ fun done hdone => ?_⟩
  exact Option.isSome_iff_ne_none.1 (hkept done ((List.mem_inits _ _).2 hdone))

end RangeLedger
