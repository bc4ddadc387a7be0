import RangeLedger.Proofs.Ledger.Outcome
import RangeLedger.Proofs.Operation.Effect

/-!
# Runs of a ledger

A run is a list of events: calls that are made on the ledger, moves of the price, and settings of
the clock. An event may be refused; the run goes on with the ledger that the refusal leaves. A run
starts from a fresh store, in which there are pools without liquidity and nothing else.

What holds of a fresh store and is kept by each event of some kind holds after every run of such
events. What an event can do is said once (`Event.Effect`), and for a property of the store it is
enough to look at the effects of the operations (`Ledger.store_after_calls`,
`Ledger.store_after_trades`).

## Main results

* `Ledger.after_invariant`: the induction over runs.
* `Ledger.moveTo_effect`: a move crosses ticks, and then sets the price if nothing was refused.
* `Event.effect_apply`: all that an event can do to the store and the bank.
* `Ledger.store_after_calls`, `Ledger.store_after_trades`: the induction for properties of the
  store.
-/

namespace RangeLedger

/-! ### Fresh stores -/

/-- A pool without liquidity, whose accumulators have not started. -/
structure Pool.IsFresh (p : Pool) : Prop where
  liquidity : p.liquidity = Dec.zero
  accumulators : ∀ id accumulator, p.incentives.get? id = some accumulator →
    accumulator = PoolIncentive.zero

/-- A new pool is fresh. -/
theorem Pool.isFresh_fresh (id : PoolId) (token0 token1 : String) (spacing : Word64)
    (created : Timestamp) : (Pool.fresh id token0 token1 spacing created).IsFresh :=
  ⟨rfl, fun _ _ h => nomatch h⟩

/-- Incentives that are started on a fresh pool leave it fresh. -/
theorem Pool.IsFresh.withIncentives {p : Pool} (h : p.IsFresh) (ids : List IncentiveId) :
    (p.withIncentives ids).IsFresh := by
  refine ⟨h.liquidity, ?_⟩
  change ∀ id accumulator, (ids.foldl (fun m id => m.insertNew id PoolIncentive.zero)
    p.incentives).get? id = some accumulator → accumulator = PoolIncentive.zero
  have hstart := h.accumulators
  generalize p.incentives = m at hstart
  induction ids generalizing m with
  | nil => exact hstart
  | cons first rest ih =>
    refine ih (m.insertNew first PoolIncentive.zero) fun id accumulator hid => ?_
    rw [Map.get?_insertNew] at hid
    split at hid
    · cases hfound : m.get? first with
      | none =>
        rw [hfound] at hid
        exact (Option.some.inj hid).symm
      | some found =>
        rw [hfound] at hid
        exact Option.some.inj hid ▸ hstart first found hfound
    · exact hstart id accumulator hid

/-- A store that keeps fresh pools, and nothing else. -/
structure Store.IsFresh (s : Store) : Prop where
  pools : ∀ p ∈ s.pools.toList, p.IsFresh
  ticks : s.ticks = Map.empty
  positions : s.positions = Table.empty

/-- The store of a list of fresh pools is fresh. -/
theorem Store.isFresh_ofPools {pools : List Pool} (h : ∀ p ∈ pools, p.IsFresh) :
    (Store.ofPools pools).IsFresh := by
  refine ⟨?_, rfl, rfl⟩
  change ∀ p ∈ (pools.foldl Table.insert Table.empty).toList, p.IsFresh
  have hstart : ∀ p ∈ (Table.empty : Table Pool.id).toList, p.IsFresh := fun p hp => nomatch hp
  generalize (Table.empty : Table Pool.id) = t at hstart
  induction pools generalizing t with
  | nil => exact hstart
  | cons first rest ih =>
    refine ih (fun p hp => h p (List.mem_cons_of_mem first hp)) (t.insert first) fun p hp => ?_
    rcases Table.mem_insertRow hp with rfl | hp
    · exact h p List.mem_cons_self
    · exact hstart p hp

namespace Store.IsFresh

variable {s : Store}

/-- No ticks are kept for a pool. -/
theorem ticksOf_eq (h : s.IsFresh) (id : PoolId) : s.ticksOf id = Map.empty := by
  rw [Store.ticksOf, h.ticks]
  rfl

/-- Every tick is as one that nothing references. -/
theorem tickAt_eq (h : s.IsFresh) (id : PoolId) (t : Tick) : s.tickAt id t = TickState.zero := by
  rw [Store.tickAt, h.ticksOf_eq]
  rfl

/-- There is no net liquidity. -/
theorem netUpTo_eq (h : s.IsFresh) (id : PoolId) (bound : Tick) : s.netUpTo id bound = 0 := by
  rw [Store.netUpTo, h.ticksOf_eq]
  rfl

/-- There is nothing to add up. -/
theorem total_eq (h : s.IsFresh) (f : Position → Int) : s.total f = 0 := by
  rw [Store.total, h.positions]
  rfl

/-- The pools are fresh. -/
theorem pool (h : s.IsFresh) {id : PoolId} {p : Pool} (hp : s.pools.get? id = some p) :
    p.IsFresh :=
  h.pools p (Table.mem_of_get? hp)

end Store.IsFresh

/-! ### Events -/

/-- Something that happens to a ledger. -/
inductive Event where
  | deposit (d : Deposit)
  | withdraw (w : Withdrawal)
  | cross (pool : PoolId) (tick : Tick)
  | addIncentive (pool : PoolId) (incentive : IncentiveId)
  /-- The price of a pool moves to a tick, with a given square root of the price there. -/
  | move (pool : PoolId) (target : Tick) (sqrtPrice : Except MathError Dec)
  | setTime (time : Timestamp)

namespace Event

/-- The ledger after an event, whether it was refused or not. -/
def apply (e : Event) (l : Ledger) : Ledger :=
  match e with
  | deposit d => ((Ledger.deposit d).run l).2
  | withdraw w => ((Ledger.withdraw w).run l).2
  | cross pool tick => ((Ledger.crossTick pool tick).run l).2
  | addIncentive pool incentive => ((Ledger.addIncentive pool incentive).run l).2
  | move pool target sqrtPrice => ((Ledger.moveTo pool target sqrtPrice).run l).2
  | setTime time => ((Ledger.setTime time).run l).2

/-- A call on the ledger, or a setting of the clock: everything but a move of the price. -/
def IsCall : Event → Prop
  | move _ _ _ => False
  | _ => True

/-- A call, or a move of the price to one with a positive square root. -/
def IsTrade : Event → Prop
  | move _ _ sqrtPrice => ∀ root, sqrtPrice = .ok root → 0 < root.raw
  | _ => True

/-- A call is a trade. -/
theorem IsCall.isTrade {e : Event} (h : e.IsCall) : e.IsTrade := by
  cases e with
  | move pool target sqrtPrice => cases h
  | _ => trivial

/-- A move to the price of its target is a trade. -/
theorem isTrade_swap (pool : PoolId) (target : Tick) :
    (move pool target target.sqrtPrice).IsTrade := by
  intro root hroot
  rw [Tick.sqrtPrice] at hroot
  split at hroot
  next =>
    obtain ⟨rounded, hrounded, hroot⟩ := bind_eq_ok_iff.1 hroot
    split at hroot
    next => cases hroot
    next hzero =>
      cases hroot
      have hraw := Dec.ofRaw_eq_ok_iff.1 hrounded
      have hne : root.raw ≠ 0 := by simpa [Dec.isZero] using hzero
      omega
  next => cases hroot

end Event

namespace Ledger

/-- The ledger after a run. -/
def after (l : Ledger) (events : List Event) : Ledger := events.foldl (fun l e => e.apply l) l

/-- No events change nothing. -/
@[simp] theorem after_nil (l : Ledger) : l.after [] = l := rfl

/-- The first event comes first. -/
@[simp] theorem after_cons (l : Ledger) (e : Event) (events : List Event) :
    l.after (e :: events) = (e.apply l).after events := rfl

/-- Events and then more of them are all of them together. -/
theorem after_append (l : Ledger) (events events' : List Event) :
    l.after (events ++ events') = (l.after events).after events' :=
  List.foldl_append

/-- **The induction over runs**: what each event of a kind keeps holds after every run of such
events. -/
theorem after_invariant (inv : Ledger → Prop) {kind : Event → Prop}
    (step : ∀ e l, kind e → inv l → inv (e.apply l)) {l : Ledger} (h : inv l)
    {events : List Event} (hevents : ∀ e ∈ events, kind e) : inv (l.after events) := by
  induction events generalizing l with
  | nil => exact h
  | cons e rest ih =>
    exact ih (step e l (hevents e List.mem_cons_self) h) fun e' he' =>
      hevents e' (List.mem_cons_of_mem e he')

end Ledger

/-! ### A small ledger

Statements about runs assume something of the ledger from which the run starts. A ledger with one
pool and one owner shows that these assumptions can be met. -/

namespace Sample

/-- An account that holds a million of each token. -/
def owner : Address := ⟨1, by decide, by decide⟩

/-- A pool of a spacing of one tick. -/
def pool : Pool where
  id := ⟨1, by decide, by decide⟩
  address := ⟨2, by decide, by decide⟩
  token0 := "eth"
  token1 := "usdc"
  spacing := ⟨1, by decide, by decide⟩
  tick := Tick.zero
  sqrtPrice := Dec.zero
  liquidity := Dec.zero
  created := Timestamp.zero
  incentives := Map.empty

/-- The pool has no liquidity and no incentives. -/
theorem pool_isFresh : pool.IsFresh := ⟨rfl, fun _ _ h => nomatch h⟩

/-- The ledger of the pool, in which nothing has happened yet. -/
def ledger : Ledger where
  store := Store.ofPools [pool]
  bank := ⟨Map.ofList [(⟨owner, "eth"⟩, ⟨1_000_000, by decide, by decide⟩),
    (⟨owner, "usdc"⟩, ⟨1_000_000, by decide, by decide⟩)]⟩
  clock := ⟨Timestamp.zero⟩
  config := { Config.standard with metricsEnabled := false }
  metrics := Metrics.empty
  source := "sample"

/-- The ledger has the pool and nothing else. -/
theorem ledger_isFresh : ledger.store.IsFresh :=
  Store.isFresh_ofPools fun p hp => by
    obtain rfl := List.mem_singleton.1 hp
    exact pool_isFresh

/-- A tick by its number, taken to the nearest one. -/
def tick (n : Int) : Tick := Bounded.clamp (by decide) n

/-- A number of units, taken to the nearest one. -/
def amount (n : Int) : Amount := Bounded.clamp Amount.zero_le_max n

/-- A number of seconds after the epoch, taken to the nearest number that a word holds. -/
def time (seconds : Int) : Timestamp :=
  Timestamp.ofSecs (Bounded.clamp Word64.zero_le_max seconds)

/-- A deposit of the owner, without minima and incentives. -/
def deposit (amount0 amount1 lower upper : Int) : Deposit where
  pool := pool.id
  owner := owner
  amount0 := amount amount0
  amount1 := amount amount1
  min0 := Amount.zero
  min1 := Amount.zero
  lower := tick lower
  upper := tick upper
  incentives := Table.empty

/-- Two deposits over ranges that share a boundary. -/
def neighbours : List Event :=
  [.deposit (deposit 500 500 (-10) 10), .deposit (deposit 500 500 10 20)]

/-- Both events are calls. -/
theorem isCall_neighbours : ∀ e ∈ neighbours, e.IsCall := by
  simp [neighbours, Event.IsCall]

/-- The same deposits, and a move of the price across the shared boundary. -/
def crossing : List Event := neighbours ++ [.move pool.id (tick 15) (.ok Dec.one)]

/-- The move is to a price with a positive root. -/
theorem isTrade_crossing : ∀ e ∈ crossing, e.IsTrade := by
  intro e he
  rcases List.mem_append.1 he with he | he
  · exact (isCall_neighbours e he).isTrade
  · obtain rfl := List.mem_singleton.1 he
    rintro root hroot
    cases hroot
    decide

end Sample

/-! ### Moves of the price -/

/-- The sign with which the net liquidity of a tick counts in a direction of travel. -/
def Direction.signed : Direction → Int → Int
  | up, n => n
  | down, n => -n

@[simp] theorem Direction.signed_up (n : Int) : up.signed n = n := rfl

@[simp] theorem Direction.signed_down (n : Int) : down.signed n = -n := rfl

/-- Signs distribute over sums. -/
theorem Direction.signed_add (dir : Direction) (m n : Int) :
    dir.signed (m + n) = dir.signed m + dir.signed n := by
  cases dir with
  | up => rfl
  | down => exact Int.neg_add

/-- Liquidity is carried over a tick with the sign of the direction, where it fits. -/
theorem Direction.carry_eq_ok_iff {dir : Direction} {liquidity net after : Dec} :
    dir.carry liquidity net = .ok after ↔
      after.raw = liquidity.raw + dir.signed net.raw := by
  cases dir with
  | up => exact Dec.add_eq_ok_iff
  | down =>
    rw [carry, signed, Dec.sub_eq_ok_iff, Int.sub_eq_add_neg]

namespace Store

/-- The net liquidity of a list of ticks. -/
def netOver (s : Store) (id : PoolId) (ticks : List Tick) : Int :=
  (ticks.map fun t => (s.tickAt id t).stake.net.raw).sum

variable {s s' : Store} {id : PoolId}

/-- Crossings keep the net liquidity of any ticks. -/
theorem Recrossed.netOver_eq (h : s.Recrossed s') (ticks : List Tick) :
    s'.netOver id ticks = s.netOver id ticks := by
  rw [netOver]
  congr 2
  funext t
  exact congrArg (fun stake : Stake => stake.net.raw) (h.stakes id t none)

/-- The net liquidity of the kept ticks of some kind is a total over all kept ticks. -/
theorem netOver_filter (kind : Tick → Prop) [DecidablePred kind] :
    s.netOver id ((s.ticksOf id).keys.filter kind) =
      (s.ticksOf id).entries.sum fun entry =>
        if kind entry.1 then entry.2.stake.net.raw else 0 := by
  have hentries : ∀ entry ∈ (s.ticksOf id).toList, s.tickAt id entry.1 = entry.2 := by
    intro entry hentry
    rw [tickAt, Map.get?_eq_some_iff_mem.2 hentry, Option.getD_some]
  rw [netOver, Table.sum, Map.keys]
  change _ = (((s.ticksOf id).toList).map _).sum
  generalize (s.ticksOf id).toList = entries at hentries
  induction entries with
  | nil => rfl
  | cons entry rest ih =>
    have ih := ih fun e he => hentries e (List.mem_cons_of_mem entry he)
    rw [List.map_cons, List.map_cons, List.sum_cons, ← ih]
    by_cases hkind : kind entry.1
    · rw [List.filter_cons_of_pos (by simpa using hkind), List.map_cons, List.sum_cons,
        if_pos hkind, hentries entry List.mem_cons_self]
    · rw [List.filter_cons_of_neg (by simpa using hkind), if_neg hkind, Int.zero_add]

/-- **What a move passes**: the net liquidity of the ticks on the way, counted in the direction of
travel, leads from the sum up to the current tick to the sum up to the target. -/
theorem signed_netOver_path (current target : Tick) :
    (Direction.between current target).signed (s.netOver id
      ((Direction.between current target).path current target (s.ticksOf id).keys)) =
        s.netUpTo id target - s.netUpTo id current := by
  have hspan {low high : Tick} (h : low ≤ high) :
      s.netOver id ((s.ticksOf id).keys.filter fun t => low < t ∧ t ≤ high) =
        s.netUpTo id high - s.netUpTo id low := by
    rw [netOver_filter]
    simp only [netUpTo]
    rw [eq_sub_iff_add_eq, ← Table.sum_add]
    refine Table.sum_congr fun entry _ => ?_
    simp only [Bounded.le_def, Bounded.lt_def] at h ⊢
    split_ifs <;> omega
  rw [Direction.between]
  by_cases h : current < target
  · rw [if_pos h]
    exact hspan (Int.le_of_lt h)
  · rw [if_neg h]
    have hdown := hspan (Int.not_lt.1 h)
    rw [Direction.signed_down]
    rw [Direction.path]
    rw [netOver] at hdown ⊢
    rw [List.map_reverse, List.sum_reverse, hdown]
    omega

end Store

namespace Ledger

variable {l l' : Ledger} {id : PoolId}

/-- **Crossing ticks one after another** is a recrossing of the store, and in the end the active
liquidity has passed the net liquidity of all of them. -/
theorem crossAll_effect {dir : Direction} {path : List Tick} {liquidity : Dec}
    {outcome : Except LedgerError Dec}
    (h : (crossAll id dir path liquidity).run l = (outcome, l')) :
    l'.bank = l.bank ∧ l.store.Recrossed l'.store ∧ ∀ after, outcome = .ok after →
      after.raw = liquidity.raw + dir.signed (l.store.netOver id path) := by
  induction path generalizing l liquidity with
  | nil =>
    cases h
    refine ⟨rfl, Store.Recrossed.refl _, fun after hafter => ?_⟩
    cases hafter
    cases dir <;> simp [Store.netOver]
  | cons t rest ih =>
    rw [crossAll, Call.run_bind] at h
    rcases hcross : (crossTick id t).run l with ⟨e | net, l₁⟩
    · rw [hcross] at h
      cases h
      rw [crossTick_eq_error hcross]
      exact ⟨rfl, Store.Recrossed.refl _, fun _ hafter => by cases hafter⟩
    · rw [hcross] at h
      obtain ⟨s, metrics, hrun, rfl⟩ := crossTick_eq_ok hcross
      obtain ⟨hfirst, hnet⟩ := Operation.crossTick_recrossed hrun
      simp only [Call.run_bind, Call.run_liftMath] at h
      cases hcarry : dir.carry liquidity net with
      | error e =>
        rw [hcarry] at h
        cases h
        exact ⟨rfl, hfirst, fun _ hafter => by cases hafter⟩
      | ok next =>
        rw [hcarry] at h
        obtain ⟨hbank, hrest, hsum⟩ := ih h
        refine ⟨hbank, hfirst.trans hrest, fun after hafter => ?_⟩
        have hnext := Direction.carry_eq_ok_iff.1 hcarry
        rw [hsum after hafter, hnext, hfirst.netOver_eq, hnet]
        simp only [Store.netOver]
        rw [List.map_cons, List.sum_cons, Direction.signed_add]
        omega

/-- An amendment of a pool keeps the amended pool, if the pool is there and may be amended. -/
theorem amendPool_effect {f : Pool → Except MathError Pool} {outcome : Except LedgerError Unit}
    (h : (amendPool id f).run l = (outcome, l')) :
    l' = l ∨ ∃ p amended, l.store.pools.get? id = some p ∧ f p = .ok amended ∧
      l' = { l with store := Storage.setPool l.store amended } := by
  rw [amendPool, Call.run_bind] at h
  rcases hpool : (pool id).run l with ⟨e | p, l₁⟩
  · rw [hpool] at h
    cases h
    exact .inl (Call.run_read_keeps hpool)
  · rw [hpool] at h
    obtain ⟨hp, rfl⟩ := pool_eq_ok hpool
    simp only [Call.run_bind, Call.run_liftMath] at h
    cases hamended : f p with
    | error e =>
      rw [hamended] at h
      cases h
      exact .inl rfl
    | ok amended =>
      rw [hamended] at h
      cases h
      exact .inr ⟨p, amended, hp, hamended, rfl⟩

section

variable {target : Tick} {sqrtPrice : Except MathError Dec}
  {outcome : Except LedgerError (List Tick)}

/-- **The arrival of a move**: the pool takes the target tick, the square root of the price and the
active liquidity, if it is there and the square root is. -/
theorem arrive_effect {path : List Tick} {liquidity : Dec}
    (h : (do
        amendPool id fun p => do
          return { p with tick := target, sqrtPrice := ← sqrtPrice, liquidity := liquidity }
        return path : Call (List Tick)).run l = (outcome, l')) :
    l' = l ∨ ∃ current root, l.store.pools.get? id = some current ∧ sqrtPrice = .ok root ∧
      l' = { l with
        store := Storage.setPool l.store
          { current with tick := target, sqrtPrice := root, liquidity := liquidity } } := by
  rw [Call.run_bind] at h
  rcases hamended : (amendPool id fun p => do
    return { p with tick := target, sqrtPrice := ← sqrtPrice, liquidity := liquidity }).run l with
    ⟨done, l₁⟩
  have hend : l' = l₁ := by
    rw [hamended] at h
    cases done with
    | error e => exact (congrArg Prod.snd h).symm
    | ok u => exact (congrArg Prod.snd h).symm
  rw [hend]
  obtain rfl | ⟨current, amended, hcurrent, hf, rfl⟩ := amendPool_effect hamended
  · exact .inl rfl
  · obtain ⟨root, hroot, heq⟩ := bind_eq_ok_iff.1 hf
    cases heq
    exact .inr ⟨current, root, hcurrent, hroot, rfl⟩

/-- **What a move is made of**: if the pool is there, it crosses ticks, and if nothing was refused
on the way it then writes to the pool. -/
theorem moveTo_cases (h : (moveTo id target sqrtPrice).run l = (outcome, l')) :
    l' = l ∨ ∃ p crossed l₁, l.store.pools.get? id = some p ∧
      (crossAll id (Direction.between p.tick target)
        ((Direction.between p.tick target).path p.tick target (l.store.ticksOf id).keys)
        p.liquidity).run l = (crossed, l₁) ∧
      (l' = l₁ ∨ ∃ current root liquidity, crossed = .ok liquidity ∧
        l₁.store.pools.get? id = some current ∧ sqrtPrice = .ok root ∧
        l' = { l₁ with
          store := Storage.setPool l₁.store
            { current with tick := target, sqrtPrice := root, liquidity := liquidity } }) := by
  rw [moveTo, Call.run_bind] at h
  rcases hpool : (pool id).run l with ⟨e | p, l₀⟩
  · rw [hpool] at h
    cases h
    exact .inl (Call.run_read_keeps hpool)
  rw [hpool] at h
  obtain ⟨hp, rfl⟩ := pool_eq_ok hpool
  simp only at h
  rw [Call.run_bind] at h
  rcases hlist : (initializedTicks id).run l₀ with ⟨e | ticks, l₁⟩
  · rw [hlist] at h
    cases h
    exact .inl (Call.run_read_keeps hlist)
  rw [hlist] at h
  obtain ⟨rfl, rfl⟩ := initializedTicks_eq_ok hlist
  simp only at h
  rw [Call.run_bind] at h
  rcases hcross : (crossAll id (Direction.between p.tick target)
    ((Direction.between p.tick target).path p.tick target (l₁.store.ticksOf id).keys)
    p.liquidity).run l₁ with ⟨e | liquidity, l₂⟩
  · rw [hcross] at h
    cases h
    exact .inr ⟨p, _, l', hp, hcross, .inl rfl⟩
  rw [hcross] at h
  refine .inr ⟨p, _, l₂, hp, hcross, ?_⟩
  obtain rfl | ⟨current, root, hcurrent, hroot, rfl⟩ := arrive_effect h
  · exact .inl rfl
  · exact .inr ⟨current, root, liquidity, rfl, hcurrent, hroot, rfl⟩

/-- **The effect of a move**: ticks are crossed, and if nothing was refused on the way the pool
takes the target tick, the given square root of the price, and the active liquidity that
came out. -/
theorem moveTo_effect (h : (moveTo id target sqrtPrice).run l = (outcome, l')) :
    l'.bank = l.bank ∧ (l.store.Recrossed l'.store ∨
      ∃ p mid current root liquidity, l.store.pools.get? id = some p ∧ l.store.Recrossed mid ∧
        mid.pools.get? id = some current ∧ sqrtPrice = .ok root ∧
        liquidity.raw = p.liquidity.raw +
          (l.store.netUpTo id target - l.store.netUpTo id p.tick) ∧
        l'.store = Storage.setPool mid
          { current with tick := target, sqrtPrice := root, liquidity := liquidity }) := by
  obtain rfl | ⟨p, crossed, l₁, hp, hcross, hend⟩ := moveTo_cases h
  · exact ⟨rfl, .inl (Store.Recrossed.refl _)⟩
  obtain ⟨hbank, hmid, hsum⟩ := crossAll_effect hcross
  obtain rfl | ⟨current, root, liquidity, rfl, hcurrent, hroot, rfl⟩ := hend
  · exact ⟨hbank, .inl hmid⟩
  · have hliquidity := hsum liquidity rfl
    rw [Store.signed_netOver_path] at hliquidity
    exact ⟨hbank, .inr ⟨p, l₁.store, current, root, liquidity, hp, hmid, hcurrent, hroot,
      hliquidity, rfl⟩⟩

end

end Ledger

/-! ### What an event can do -/

namespace Event

/-- What an event can do to the store and the bank of a ledger. -/
inductive Effect (l : Ledger) : Event → Store → Bank → Prop where
  /-- Nothing, as when it is refused. -/
  | still {e : Event} : Effect l e l.store l.bank
  | deposit {d : Deposit} {r : Receipt} {s : Store} {p : Pool} {bank : Bank}
      (hrun : (Operation.deposit l.clock.now l.config d).run l.store = (.ok r, s))
      (hpool : s.pools.get? d.pool = some p)
      (hsend : l.bank.send d.owner p.address (p.coins r.amount0 r.amount1) = .ok bank) :
      Effect l (.deposit d) s bank
  | withdraw {w : Withdrawal} {out : Amount × Amount} {s : Store} {p : Pool} {bank : Bank}
      (hrun : (Operation.withdraw l.clock.now l.config w).run l.store = (.ok out, s))
      (hpool : s.pools.get? w.pool = some p)
      (hsend : l.bank.send p.address w.owner (p.coins out.1 out.2) = .ok bank) :
      Effect l (.withdraw w) s bank
  | cross {id : PoolId} {t : Tick} {net : Dec} {s : Store}
      (hrun : (Operation.crossTick l.clock.now l.config.inactiveMode id t).run l.store =
        (.ok net, s)) :
      Effect l (.cross id t) s l.bank
  | addIncentive {id : PoolId} {incentive : IncentiveId} {s : Store}
      (hrun : (Operation.addIncentive id incentive).run l.store = (.ok (), s)) :
      Effect l (.addIncentive id incentive) s l.bank
  /-- A move may cross ticks and then stop. -/
  | stopped {id : PoolId} {target : Tick} {sqrtPrice : Except MathError Dec} {s : Store}
      (hmid : l.store.Recrossed s) : Effect l (.move id target sqrtPrice) s l.bank
  | moved {target : Tick} {p current : Pool} {mid : Store} {root liquidity : Dec}
      (hp : l.store.pools.get? current.id = some p) (hmid : l.store.Recrossed mid)
      (hcurrent : mid.pools.get? current.id = some current)
      (hsum : liquidity.raw = p.liquidity.raw +
        (l.store.netUpTo current.id target - l.store.netUpTo current.id p.tick)) :
      Effect l (.move current.id target (.ok root))
        (Storage.setPool mid
          { current with tick := target, sqrtPrice := root, liquidity := liquidity }) l.bank

/-- **What an event can do.** -/
theorem effect_apply (e : Event) (l : Ledger) : e.Effect l (e.apply l).store (e.apply l).bank := by
  cases e with
  | deposit d =>
    change Effect l _ ((Ledger.deposit d).run l).2.store ((Ledger.deposit d).run l).2.bank
    rcases hrun : (Ledger.deposit d).run l with ⟨cause | r, l'⟩
    · rw [Ledger.deposit_eq_error hrun]
      exact .still
    · obtain ⟨s, p, bank, metrics, hs, hp, hsend, rfl⟩ := Ledger.deposit_eq_ok hrun
      exact .deposit hs hp hsend
  | withdraw w =>
    change Effect l _ ((Ledger.withdraw w).run l).2.store ((Ledger.withdraw w).run l).2.bank
    rcases hrun : (Ledger.withdraw w).run l with ⟨cause | out, l'⟩
    · rw [(Ledger.withdraw_eq_error hrun).1]
      exact .still
    · obtain ⟨s, p, bank, metrics, hs, hp, hsend, rfl⟩ := Ledger.withdraw_eq_ok hrun
      exact .withdraw hs hp hsend
  | cross id t =>
    change Effect l _ ((Ledger.crossTick id t).run l).2.store ((Ledger.crossTick id t).run l).2.bank
    rcases hrun : (Ledger.crossTick id t).run l with ⟨cause | net, l'⟩
    · rw [Ledger.crossTick_eq_error hrun]
      exact .still
    · obtain ⟨s, metrics, hs, rfl⟩ := Ledger.crossTick_eq_ok hrun
      exact .cross hs
  | addIncentive id incentive =>
    change Effect l _ ((Ledger.addIncentive id incentive).run l).2.store
      ((Ledger.addIncentive id incentive).run l).2.bank
    rcases hrun : (Ledger.addIncentive id incentive).run l with ⟨cause | u, l'⟩
    · rw [Ledger.addIncentive_eq_error hrun]
      exact .still
    · obtain ⟨s, hs, rfl⟩ := Ledger.addIncentive_eq_ok hrun
      exact .addIncentive hs
  | move id target sqrtPrice =>
    change Effect l _ ((Ledger.moveTo id target sqrtPrice).run l).2.store
      ((Ledger.moveTo id target sqrtPrice).run l).2.bank
    rcases hrun : (Ledger.moveTo id target sqrtPrice).run l with ⟨outcome, l'⟩
    obtain ⟨hbank, hstop | ⟨p, mid, current, root, liquidity, hp, hmid, hcurrent, rfl, hsum,
      hstore⟩⟩ := Ledger.moveTo_effect hrun
    · rw [hbank]
      exact .stopped hstop
    · obtain rfl : current.id = id := Table.key_of_get? hcurrent
      rw [hbank, hstore]
      exact .moved hp hmid hcurrent hsum
  | setTime time => exact .still

end Event

/-! ### Properties of the store -/

section

variable {inv : Store → Prop}
  (hrecrossed : ∀ s s', s.Recrossed s' → inv s → inv s')
  (hdeposit : ∀ s s' now c d r, (Operation.deposit now c d).run s = (.ok r, s') → inv s → inv s')
  (hwithdraw : ∀ s s' now c w out,
    (Operation.withdraw now c w).run s = (.ok out, s') → inv s → inv s')
  (hmove : ∀ (s mid : Store) (p current : Pool) (target : Tick) (root liquidity : Dec),
    s.pools.get? current.id = some p → s.Recrossed mid → mid.pools.get? current.id = some current →
    0 < root.raw →
    liquidity.raw = p.liquidity.raw +
      (s.netUpTo current.id target - s.netUpTo current.id p.tick) → inv s →
    inv (Storage.setPool mid
      { current with tick := target, sqrtPrice := root, liquidity := liquidity }))

include hrecrossed hdeposit hwithdraw

/-- **The induction for properties of the store**, over runs of calls. -/
theorem Ledger.store_after_calls {l : Ledger} (h : inv l.store) {events : List Event}
    (hevents : ∀ e ∈ events, e.IsCall) : inv (l.after events).store := by
  refine Ledger.after_invariant (fun l => inv l.store) (fun e l he hl => ?_) h hevents
  have heffect := e.effect_apply l
  generalize (e.apply l).store = s, (e.apply l).bank = bank at heffect ⊢
  cases heffect with
  | still => exact hl
  | deposit hrun => exact hdeposit _ _ _ _ _ _ hrun hl
  | withdraw hrun => exact hwithdraw _ _ _ _ _ _ hrun hl
  | cross hrun => exact hrecrossed _ _ (Operation.crossTick_recrossed hrun).1 hl
  | addIncentive hrun => exact hrecrossed _ _ (Operation.addIncentive_recrossed hrun) hl
  | stopped => cases he
  | moved => cases he

include hmove

/-- **The induction for properties of the store**, over runs of calls and moves of the price. -/
theorem Ledger.store_after_trades {l : Ledger} (h : inv l.store) {events : List Event}
    (hevents : ∀ e ∈ events, e.IsTrade) : inv (l.after events).store := by
  refine Ledger.after_invariant (fun l => inv l.store) (fun e l he hl => ?_) h hevents
  have heffect := e.effect_apply l
  generalize (e.apply l).store = s, (e.apply l).bank = bank at heffect ⊢
  cases heffect with
  | still => exact hl
  | deposit hrun => exact hdeposit _ _ _ _ _ _ hrun hl
  | withdraw hrun => exact hwithdraw _ _ _ _ _ _ hrun hl
  | cross hrun => exact hrecrossed _ _ (Operation.crossTick_recrossed hrun).1 hl
  | addIncentive hrun => exact hrecrossed _ _ (Operation.addIncentive_recrossed hrun) hl
  | stopped hmid => exact hrecrossed _ _ hmid hl
  | moved hp hmid hcurrent hsum => exact hmove _ _ _ _ _ _ _ hp hmid hcurrent (he _ rfl) hsum hl

end

end RangeLedger
