import RangeLedger.Proofs.Storage.Commit

/-!
# Programs that stage their work

A program can do a part of its work on an overlay of the storage that it runs on, look at the
result, and then commit the overlay or drop it. The part may stage in its turn, so overlays lie on
overlays to any depth. The store itself keeps nothing of this: a `Staged` program also has a plain
run, in which every part works on the storage directly and a part that is to be dropped is
forgotten.

Both runs record the answers that the storage gives on the way. They agree in all of them, and in
the storage that they leave, because every layer has the view that the plain run has at that point
(`Staged.run_eq_plain`); and what lies beneath an overlay is not touched before the commit
(`Staged.base_run`). Pools are committed in an order that the program does not choose: each commit
comes with an order of its own.

## Main results

* `Staged.run_eq_plain`: a staged run on any lawful storage, from its view.
* `Staged.base_run`: what is beneath an overlay stays as it is.
* `Staged.run_ofBase_refines`: a staged run on an overlay of the store refines the plain run on the
  store.
-/

namespace RangeLedger

/-- A question to a storage, with the answer that was given. -/
inductive Answer where
  | pool (id : PoolId) (found : Option Pool)
  | tick (pool : PoolId) (t : Tick) (found : Option TickState)
  /-- The ticks of a pool, in ascending order. -/
  | ticks (pool : PoolId) (listing : List (Tick × TickState))
  | position (key : PositionKey) (found : Option Position)

/-- What a program comes to: its result, and all that it was answered on the way. -/
structure Trace (α : Type) where
  result : α
  answers : List Answer

/-- The trace of a program behind answers that were given before. -/
def Trace.behind {α : Type} (t : Trace α) (earlier : List Answer) : Trace α :=
  { t with answers := earlier ++ t.answers }

/-! ### Scripts -/

namespace Script

variable {α σ : Type} [Storage σ]

/-- All that a script is answered, in order. -/
def answers : Script α → σ → List Answer
  | done _, _ => []
  | readPool id next, s =>
    .pool id (Storage.pool? s id) :: (next (Storage.pool? s id)).answers s
  | writePool pool next, s => next.answers (Storage.setPool s pool)
  | readTick pool t next, s =>
    .tick pool t (Storage.tick? s pool t) :: (next (Storage.tick? s pool t)).answers s
  | writeTick pool t state next, s => next.answers (Storage.setTick s pool t state)
  | listTicks pool next, s =>
    .ticks pool (Storage.ticks s pool).toList :: (next (Storage.ticks s pool)).answers s
  | readPosition key next, s =>
    .position key (Storage.position? s key) :: (next (Storage.position? s key)).answers s
  | writePosition position next, s => next.answers (Storage.setPosition s position)
  | erasePosition key next, s => next.answers (Storage.erasePosition s key)

/-- What a script is answered depends on the view alone. -/
theorem answers_view [LawfulStorage σ] (x : Script α) (s : σ) :
    x.answers s = x.answers (View.of s) := by
  induction x generalizing s with
  | done => rfl
  | readPool id _ ih => exact congrArg _ (ih (Storage.pool? s id) s)
  | listTicks pool _ ih => exact congrArg _ (ih (Storage.ticks s pool) s)
  | readPosition key _ ih => exact congrArg _ (ih (Storage.position? s key) s)
  | readTick pool t _ ih =>
    have hread : Storage.tick? (View.of s) pool t = Storage.tick? s pool t :=
      (LawfulStorage.tick?_eq s pool t).symm
    simp only [answers, hread, ih]
  | writePool p _ ih => rw [answers, ih, LawfulStorage.view_setPool, answers]
  | writeTick pool t state _ ih => rw [answers, ih, LawfulStorage.view_setTick, answers]
  | writePosition p _ ih => rw [answers, ih, LawfulStorage.view_setPosition, answers]
  | erasePosition key _ ih => rw [answers, ih, LawfulStorage.view_erasePosition, answers]

/-- A script on an overlay writes to the overlay. -/
theorem base_run (x : Script α) (o : Overlay σ) : (x.run o).2.base = o.base := by
  induction x generalizing o with
  | done => rfl
  | readPool _ _ ih | readTick _ _ _ ih | listTicks _ _ ih | readPosition _ _ ih => exact ih _ o
  | writePool p _ ih => exact ih (Storage.setPool o p)
  | writeTick pool t state _ ih => exact ih (Storage.setTick o pool t state)
  | writePosition p _ ih => exact ih (Storage.setPosition o p)
  | erasePosition key _ ih => exact ih (Storage.erasePosition o key)

end Script

/-! ### Commits in some order -/

/-- An order in which pools are written. -/
structure Shuffle where
  arrange : List Pool → List Pool
  perm : ∀ pools, (arrange pools).Perm pools

namespace Overlay

variable {σ : Type} [Storage σ]

/-- The storage beneath with the writes put into it, the pools in some order. -/
def commitIn (order : Shuffle) (o : Overlay σ) : σ :=
  o.writes.commitWith (order.arrange o.writes.pools.toList) o.base

/-- An overlay that is committed in any order answers as before. -/
theorem view_commitIn [LawfulStorage σ] (order : Shuffle) (o : Overlay σ) :
    View.of (o.commitIn order) = View.of o := by
  rw [Overlay.view_eq]
  exact Writes.view_commitWith o.writes (order.perm _) o.base

/-- A new overlay answers as the storage beneath. -/
theorem view_ofBase (s : σ) : View.of (ofBase s) = View.of s := rfl

/-- What is committed to an overlay stays on it. -/
theorem base_commitIn (order : Shuffle) (o : Overlay (Overlay σ)) :
    (o.commitIn order).base = o.base.base := by
  have hpools (pools : List Pool) (o : Overlay σ) :
      (pools.foldl Storage.setPool o).base = o.base :=
    frame_foldl (fun o p => (rfl : (Storage.setPool o p).base = o.base)) pools o
  have hpositions (w : Writes) (o : Overlay σ) : (w.commitPositions o).base = o.base :=
    frame_foldl (f := Overlay.base) (fun _ edit => by cases edit <;> rfl) w.positions.toList o
  have hticks (w : Writes) (o : Overlay σ) : (w.commitTicks o).base = o.base := by
    refine frame_foldl (f := Overlay.base) (fun o entry => ?_) w.ticks.toList o
    exact frame_foldl
      (fun o t => (rfl : (Storage.setTick o entry.1 t.1 t.2).base = o.base)) entry.2.toList o
  rw [commitIn, Writes.commitWith, hpositions, hticks, hpools]

end Overlay

/-! ### Staged programs -/

/-- A program that may do parts of its work on overlays. -/
inductive Staged : Type → Type 1 where
  | done {α : Type} (value : α) : Staged α
  /-- Goes on after a script. -/
  | script {α β : Type} (x : Script β) (next : β → Staged α) : Staged α
  /-- Goes on after a part that works on a new overlay, which is committed, with the pools in some
  order, if the result is one to keep, and dropped otherwise. -/
  | stage {α β : Type} (part : Staged β) (keep : β → Bool) (order : Shuffle)
      (next : β → Staged α) : Staged α

namespace Staged

/-- Runs a program whose parts work on overlays. -/
def run : {α : Type} → Staged α → {σ : Type} → [Storage σ] → σ → Trace α × σ
  | _, done value, _, _, s => (⟨value, []⟩, s)
  | _, script x next, _, _, s =>
    let rest := (next (x.run s).1).run (x.run s).2
    (rest.1.behind (x.answers s), rest.2)
  | _, stage part keep order next, _, _, s =>
    let inner := part.run (Overlay.ofBase s)
    let rest := (next inner.1.result).run
      (if keep inner.1.result then inner.2.commitIn order else inner.2.base)
    (rest.1.behind inner.1.answers, rest.2)

/-- Runs a program whose parts work on the storage itself; what a part did that is to be dropped is
forgotten. -/
def plain : {α : Type} → Staged α → {σ : Type} → [Storage σ] → σ → Trace α × σ
  | _, done value, _, _, s => (⟨value, []⟩, s)
  | _, script x next, _, _, s =>
    let rest := (next (x.run s).1).plain (x.run s).2
    (rest.1.behind (x.answers s), rest.2)
  | _, stage part keep _ next, _, _, s =>
    let inner := part.plain s
    let rest := (next inner.1.result).plain (if keep inner.1.result then inner.2 else s)
    (rest.1.behind inner.1.answers, rest.2)

/-- **What is beneath an overlay stays as it is** while a program runs on the overlay, whatever is
staged on top and committed to it. -/
theorem base_run {α : Type} (x : Staged α) {σ : Type} [Storage σ] (o : Overlay σ) :
    (x.run o).2.base = o.base := by
  induction x generalizing σ with
  | done => rfl
  | script x next ih => exact (ih (x.run o).1 (x.run o).2).trans (x.base_run o)
  | stage part keep order next ihpart ihnext =>
    have hbeneath : (part.run (Overlay.ofBase o)).2.base = o := ihpart (Overlay.ofBase o)
    refine (ihnext _ _).trans ?_
    split
    · rw [Overlay.base_commitIn, hbeneath]
    · rw [hbeneath]

/-- **A staged run and the plain run**, on lawful storages with one view, have one trace, and leave
storages with one view. -/
theorem run_eq_plain {α : Type} (x : Staged α) {σ τ : Type} [Storage σ] [LawfulStorage σ]
    [Storage τ] [LawfulStorage τ] {s : σ} {t : τ} (h : View.of s = View.of t) :
    (x.run s).1 = (x.plain t).1 ∧ View.of (x.run s).2 = View.of (x.plain t).2 := by
  induction x generalizing σ τ with
  | done => exact ⟨rfl, h⟩
  | script x next ih =>
    have hanswers : x.answers s = x.answers t := by rw [x.answers_view, h, ← x.answers_view]
    have hresult : (x.run s).1 = (x.run t).1 := by
      rw [(x.run_view s).1, h, ← (x.run_view t).1]
    have hleft : View.of (x.run s).2 = View.of (x.run t).2 := by
      rw [(x.run_view s).2, h, ← (x.run_view t).2]
    obtain ⟨htrace, hrest⟩ := ih (x.run t).1 hleft
    simp only [run, plain]
    rw [hanswers, hresult]
    exact ⟨congrArg (Trace.behind · _) htrace, hrest⟩
  | stage part keep order next ihpart ihnext =>
    obtain ⟨hinner, hview⟩ := ihpart (s := Overlay.ofBase s) (t := t) h
    have hbeneath : (part.run (Overlay.ofBase s)).2.base = s := part.base_run (Overlay.ofBase s)
    -- the storage that the rest runs on has the view that the plain run has there
    have hlayer (kept : Bool) :
        View.of (if kept then (part.run (Overlay.ofBase s)).2.commitIn order
          else (part.run (Overlay.ofBase s)).2.base) =
          View.of (if kept then (part.plain t).2 else t) := by
      cases kept with
      | true => exact (Overlay.view_commitIn order _).trans hview
      | false => exact (congrArg View.of hbeneath).trans h
    obtain ⟨htrace, hrest⟩ :=
      ihnext (part.plain t).1.result (hlayer (keep (part.plain t).1.result))
    simp only [run, plain]
    rw [hinner]
    exact ⟨congrArg (Trace.behind · _) htrace, hrest⟩

end Staged

/-- **The staged store refines the plain store.** Let a program run on an overlay of the store,
staging parts of its work to any depth. It has the result, and on the way gets the answers, that it
has and gets when it runs on the store directly. No storage beneath an overlay that the program runs
on is changed by it, so an overlay that is dropped leaves no trace. And once the overlay of the
store is committed, with the pools in any order, the store answers every question as the store does
on which the program ran directly. -/
theorem Staged.run_ofBase_refines {α : Type} (x : Staged α) (s : Store) (order : Shuffle) :
    (x.run (Overlay.ofBase s)).1 = (x.plain s).1 ∧
      (∀ {σ : Type} [Storage σ] (o : Overlay σ), (x.run o).2.base = o.base) ∧
      (∀ id, Storage.pool? ((x.run (Overlay.ofBase s)).2.commitIn order) id =
        Storage.pool? (x.plain s).2 id) ∧
      (∀ pool t, Storage.tick? ((x.run (Overlay.ofBase s)).2.commitIn order) pool t =
        Storage.tick? (x.plain s).2 pool t) ∧
      (∀ pool, Storage.ticks ((x.run (Overlay.ofBase s)).2.commitIn order) pool =
        Storage.ticks (x.plain s).2 pool) ∧
      ∀ key, Storage.position? ((x.run (Overlay.ofBase s)).2.commitIn order) key =
        Storage.position? (x.plain s).2 key := by
  obtain ⟨htrace, hleft⟩ := x.run_eq_plain (Overlay.view_ofBase s)
  have hview : View.of ((x.run (Overlay.ofBase s)).2.commitIn order) = View.of (x.plain s).2 := by
    rw [Overlay.view_commitIn, hleft]
  obtain ⟨hpools, hticks, hpositions⟩ := View.ext_iff.1 hview
  refine ⟨htrace, fun o => x.base_run o, congrFun hpools, fun pool t => ?_, congrFun hticks,
    congrFun hpositions⟩
  rw [LawfulStorage.tick?_eq, LawfulStorage.tick?_eq]
  exact congrArg (Map.get? · t) (congrFun hticks pool)

end RangeLedger
