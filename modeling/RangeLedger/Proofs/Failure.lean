/-!
# Computations that may fail

A computation that may fail succeeds when all its parts do. The first facts take a success apart: at
a sequencing, behind a change of the error, and along a fold. A failure has its cause in some part;
what can be said of the causes of the parts can be said of those of the whole (`FailsOnly`).

## Main results

* `foldlM_invariant`: what every step of a fold keeps holds of its result.
* `FailsOnly.bind`, `FailsOnly.foldlM`: the causes of failure of a sequence and of a fold.
-/

namespace RangeLedger

variable {ε ε' α β σ : Type}

/-- Two computations succeed one after the other just if each of them does. -/
theorem bind_eq_ok_iff {x : Except ε α} {f : α → Except ε β} {b : β} :
    x >>= f = .ok b ↔ ∃ a, x = .ok a ∧ f a = .ok b := by
  cases x with
  | error e => exact ⟨nofun, fun ⟨_, h, _⟩ => nomatch h⟩
  | ok a =>
    constructor
    · intro h
      exact ⟨a, rfl, h⟩
    · rintro ⟨_, h, hf⟩
      cases h
      exact hf

/-- A sequence fails where its first part does, or else where its second does. -/
theorem bind_eq_error_iff {x : Except ε α} {f : α → Except ε β} {e : ε} :
    x >>= f = .error e ↔ x = .error e ∨ ∃ a, x = .ok a ∧ f a = .error e := by
  cases x with
  | error e' =>
    constructor
    · intro h
      cases h
      exact .inl rfl
    · rintro (h | ⟨_, h, -⟩)
      · cases h
        rfl
      · cases h
  | ok a =>
    constructor
    · intro h
      exact .inr ⟨a, rfl, h⟩
    · rintro (h | ⟨_, h, hf⟩)
      · cases h
      · cases h
        exact hf

/-- Renaming causes of failure does not touch what succeeds. -/
theorem mapError_eq_ok_iff {g : ε → ε'} {x : Except ε α} {a : α} :
    x.mapError g = .ok a ↔ x = .ok a := by
  cases x with
  | error e => exact ⟨nofun, nofun⟩
  | ok b =>
    change Except.ok b = Except.ok a ↔ _
    rw [Except.ok.injEq, Except.ok.injEq]

/-- What is found of an outcome by evaluation. -/
theorem exists_ok_of_any {x : Except ε α} {q : α → Prop} [DecidablePred q]
    (h : x.toOption.any (fun a => decide (q a)) = true) : ∃ a, x = .ok a ∧ q a := by
  cases x with
  | error e => cases h
  | ok a => exact ⟨a, rfl, of_decide_eq_true h⟩

/-- **What a fold keeps.** A property of the items that are left and the value so far, kept by each
step that succeeds, holds in the end of no items and the result. -/
theorem foldlM_invariant {f : σ → α → Except ε σ} (inv : List α → σ → Prop)
    (step : ∀ a rest s s', inv (a :: rest) s → f s a = .ok s' → inv rest s') {items : List α}
    {s s' : σ} (hs : inv items s) (h : items.foldlM f s = .ok s') : inv [] s' := by
  induction items generalizing s with
  | nil =>
    cases h
    exact hs
  | cons a rest ih =>
    rw [List.foldlM_cons, bind_eq_ok_iff] at h
    obtain ⟨s₁, hfirst, hrest⟩ := h
    exact ih (step a rest s s₁ hs hfirst) hrest

/-! ### Causes of failure -/

/-- Every cause for which a computation fails is of some kind. -/
def FailsOnly (x : Except ε α) (kind : ε → Prop) : Prop := ∀ e, x = .error e → kind e

namespace FailsOnly

variable {kind : ε → Prop}

/-- What succeeds has no cause of failure. -/
theorem ok (a : α) : FailsOnly (.ok a : Except ε α) kind := by
  intro e h
  cases h

/-- What fails at once has one cause. -/
theorem error {e : ε} (h : kind e) : FailsOnly (.error e : Except ε α) kind := by
  intro e' h'
  cases h'
  exact h

/-- What stands behind a part has its causes of failure after the results of that part. -/
theorem bind_of {x : Except ε α} {f : α → Except ε β} (hx : FailsOnly x kind)
    (hf : ∀ a, x = .ok a → FailsOnly (f a) kind) : FailsOnly (x >>= f) kind := by
  intro e h
  obtain h | ⟨a, hrun, h⟩ := bind_eq_error_iff.1 h
  · exact hx e h
  · exact hf a hrun e h

/-- Two computations one after the other fail only as each of them does. -/
theorem bind {x : Except ε α} {f : α → Except ε β} (hx : FailsOnly x kind)
    (hf : ∀ a, FailsOnly (f a) kind) : FailsOnly (x >>= f) kind :=
  bind_of hx fun a _ => hf a

/-- A failure that is none of the causes of the first part comes from behind it. -/
theorem bind_eq_error_iff_of {x : Except ε α} {f : α → Except ε β} {e : ε}
    (hx : FailsOnly x (· ≠ e)) : x >>= f = .error e ↔ ∃ a, x = .ok a ∧ f a = .error e := by
  rw [bind_eq_error_iff]
  exact or_iff_right fun h => hx e h rfl

/-- Renamed causes are of the kind into which they are renamed. -/
theorem mapError_of {x : Except ε' α} {g : ε' → ε} {kind' : ε' → Prop} (hx : FailsOnly x kind')
    (h : ∀ e, kind' e → kind (g e)) : FailsOnly (x.mapError g) kind := by
  intro e hfail
  cases hrun : x with
  | error e' =>
    rw [hrun] at hfail
    cases hfail
    exact h e' (hx e' hrun)
  | ok a =>
    rw [hrun] at hfail
    cases hfail

/-- A computation by cases fails only as the cases do. -/
theorem ite {b : Prop} [Decidable b] {x y : Except ε α} (hx : FailsOnly x kind)
    (hy : FailsOnly y kind) : FailsOnly (if b then x else y) kind := by
  split
  · exact hx
  · exact hy

/-- What stands behind a check plays no part where the check fails. -/
theorem guard {b : Prop} [Decidable b] {e : ε} {f : β → Except ε α} {x : Except ε α} (he : kind e)
    (hx : ¬b → FailsOnly x kind) :
    FailsOnly (if b then (Except.error e : Except ε β) >>= f else x) kind := by
  split
  next => exact error he
  next hb => exact hx hb

/-- A computation over a list fails only as its steps do. -/
theorem foldlM {f : σ → α → Except ε σ} (hf : ∀ s a, FailsOnly (f s a) kind) (items : List α)
    (s : σ) :
    FailsOnly (items.foldlM f s) kind := by
  induction items generalizing s with
  | nil => exact ok s
  | cons a rest ih => exact bind (hf s a) ih

end FailsOnly

end RangeLedger
