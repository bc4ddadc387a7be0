import RangeLedger.Store.Storage

/-!
# Scripts

A script is a finite program of reads and writes, in which what is asked later may depend on what
was answered before. A script does not say which storage it runs on: the same script runs on the
store, on an overlay of it, and on overlays of overlays.

## Main results

* `run_bind`: running one script after another hands the storage on.
* Scripts form a lawful monad.
-/

namespace RangeLedger

/-- A program of reads and writes with a result. -/
inductive Script (α : Type) : Type where
  /-- Ends with a result. -/
  | done (value : α)
  | readPool (id : PoolId) (next : Option Pool → Script α)
  | writePool (pool : Pool) (next : Script α)
  | readTick (pool : PoolId) (tick : Tick) (next : Option TickState → Script α)
  | writeTick (pool : PoolId) (tick : Tick) (state : TickState) (next : Script α)
  | listTicks (pool : PoolId) (next : Map Tick TickState → Script α)
  | readPosition (key : PositionKey) (next : Option Position → Script α)
  | writePosition (position : Position) (next : Script α)
  | erasePosition (key : PositionKey) (next : Script α)

namespace Script

variable {α β γ : Type}

/-- Goes on with a script that depends on the result. -/
def bind (x : Script α) (f : α → Script β) : Script β :=
  match x with
  | done value => f value
  | readPool id next => readPool id fun a => (next a).bind f
  | writePool pool next => writePool pool (next.bind f)
  | readTick pool tick next => readTick pool tick fun a => (next a).bind f
  | writeTick pool tick state next => writeTick pool tick state (next.bind f)
  | listTicks pool next => listTicks pool fun a => (next a).bind f
  | readPosition key next => readPosition key fun a => (next a).bind f
  | writePosition position next => writePosition position (next.bind f)
  | erasePosition key next => erasePosition key (next.bind f)

instance : Monad Script where
  pure := done
  bind := bind

/-- Runs a script on a storage. -/
def run {σ : Type} [Storage σ] : Script α → σ → α × σ
  | done value, s => (value, s)
  | readPool id next, s => (next (Storage.pool? s id)).run s
  | writePool pool next, s => next.run (Storage.setPool s pool)
  | readTick pool tick next, s => (next (Storage.tick? s pool tick)).run s
  | writeTick pool tick state next, s => next.run (Storage.setTick s pool tick state)
  | listTicks pool next, s => (next (Storage.ticks s pool)).run s
  | readPosition key next, s => (next (Storage.position? s key)).run s
  | writePosition position next, s => next.run (Storage.setPosition s position)
  | erasePosition key next, s => next.run (Storage.erasePosition s key)

/-! ### Laws -/

/-- A script that is only continued by its answer is itself. -/
theorem bind_done (x : Script α) : x.bind done = x := by
  induction x with
  | done => rfl
  | readPool _ _ ih | readTick _ _ _ ih | listTicks _ _ ih | readPosition _ _ ih =>
    simp only [bind]; congr 1; funext a; exact ih a
  | writePool _ _ ih | writeTick _ _ _ _ ih | writePosition _ _ ih | erasePosition _ _ ih =>
    simp only [bind, ih]

/-- Scripts may be put together from either end. -/
theorem bind_assoc (x : Script α) (f : α → Script β) (g : β → Script γ) :
    (x.bind f).bind g = x.bind fun a => (f a).bind g := by
  induction x with
  | done => rfl
  | readPool _ _ ih | readTick _ _ _ ih | listTicks _ _ ih | readPosition _ _ ih =>
    simp only [bind]; congr 1; funext a; exact ih a
  | writePool _ _ ih | writeTick _ _ _ _ ih | writePosition _ _ ih | erasePosition _ _ ih =>
    simp only [bind, ih]

instance : LawfulMonad Script := LawfulMonad.mk' Script
  (fun x => bind_done x)
  (fun _ _ => rfl)
  (fun x f g => bind_assoc x f g)

/-- A sequence of scripts runs the second on what the first leaves. -/
theorem run_bind {σ : Type} [Storage σ] (x : Script α) (f : α → Script β) (s : σ) :
    (x >>= f).run s = (f (x.run s).1).run (x.run s).2 := by
  change (x.bind f).run s = _
  induction x generalizing s with
  | done => rfl
  | readPool _ _ ih | readTick _ _ _ ih | listTicks _ _ ih | readPosition _ _ ih =>
    simp only [bind, run, ih]
  | writePool _ _ ih | writeTick _ _ _ _ ih | writePosition _ _ ih | erasePosition _ _ ih =>
    simp only [bind, run, ih]

end Script

end RangeLedger
