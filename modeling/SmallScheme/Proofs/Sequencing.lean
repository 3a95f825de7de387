/-!
# Computations with a state and errors

Both the reader and the evaluator are computations that pass a state on and may fail.
These lemmas take such a computation apart: into what its first step did and what the
rest did from there.
-/

namespace SmallScheme.Sequencing

variable {ε σ α β : Type}

theorem bind_apply (x : EStateM ε σ α) (k : α → EStateM ε σ β) (s : σ) :
    (x >>= k) s = match x s with
      | .ok a t => k a t
      | .error e t => .error e t := rfl

@[simp]
theorem pure_apply (a : α) (s : σ) : (pure a : EStateM ε σ α) s = .ok a s := rfl

@[simp]
theorem throw_apply (e : ε) (s : σ) : (throw e : EStateM ε σ α) s = .error e s := rfl

@[simp]
theorem get_apply (s : σ) : (get : EStateM ε σ σ) s = .ok s s := rfl

@[simp]
theorem modifyGet_apply (g : σ → α × σ) (s : σ) :
    (modifyGet g : EStateM ε σ α) s = .ok (g s).1 (g s).2 := rfl

/-- A step that succeeds hands its answer and its state on. -/
theorem bind_of_ok {x : EStateM ε σ α} {s t : σ} {a : α} (h : x s = .ok a t)
    (k : α → EStateM ε σ β) : (x >>= k) s = k a t := by
  rw [bind_apply, h]

/-- A step that fails ends the computation. -/
theorem bind_of_error {x : EStateM ε σ α} {s t : σ} {e : ε} (h : x s = .error e t)
    (k : α → EStateM ε σ β) : (x >>= k) s = .error e t := by
  rw [bind_apply, h]

/-- A computation succeeds when its first step and the rest both do. -/
theorem bind_eq_ok_iff {x : EStateM ε σ α} {k : α → EStateM ε σ β} {s u : σ} {b : β} :
    (x >>= k) s = .ok b u ↔ ∃ a t, x s = .ok a t ∧ k a t = .ok b u := by
  rw [bind_apply]
  constructor
  · intro h
    split at h
    · next a t hx => exact ⟨a, t, hx, h⟩
    · cases h
  · rintro ⟨a, t, hx, hk⟩
    rw [hx]
    exact hk

/-- A computation without a state succeeds when its first step and the rest both do. -/
theorem exists_of_bind_eq_ok {x : Except ε α} {k : α → Except ε β} {b : β}
    (h : (x >>= k) = .ok b) : ∃ a, x = .ok a ∧ k a = .ok b := by
  cases x with
  | ok a => exact ⟨a, rfl, h⟩
  | error e => cases h

/-- A computation without a state fails in its first step or in the rest. -/
theorem or_exists_of_bind_eq_error {x : Except ε α} {k : α → Except ε β} {e : ε}
    (h : (x >>= k) = .error e) : x = .error e ∨ ∃ a, x = .ok a ∧ k a = .error e := by
  cases x with
  | ok a => exact .inr ⟨a, rfl, h⟩
  | error e' =>
    cases h
    exact .inl rfl

end SmallScheme.Sequencing

namespace SmallScheme

open Sequencing

/-! ### Approximations -/

/-- `Approximates cut x y`: the computation `x` ends as `y` does, unless an error with the
property `cut` ends it before. -/
def Approximates {ε σ α : Type} (cut : ε → Prop) (x y : EStateM ε σ α) : Prop :=
  ∀ s, x s = y s ∨ ∃ e t, cut e ∧ x s = .error e t

namespace Approximates

variable {ε σ α β : Type} {cut : ε → Prop}

theorem refl (x : EStateM ε σ α) : Approximates cut x x := fun _ => Or.inl rfl

/-- Approximations one after the other are an approximation. -/
theorem bind {x y : EStateM ε σ α} {k l : α → EStateM ε σ β} (h : Approximates cut x y)
    (hk : ∀ a, Approximates cut (k a) (l a)) : Approximates cut (x >>= k) (y >>= l) := by
  intro s
  rcases h s with hxy | ⟨e, t, he, hx⟩
  · cases hy : y s with
    | ok a t =>
      rw [bind_of_ok (hxy.trans hy), bind_of_ok hy]
      exact hk a t
    | error e t =>
      rw [bind_of_error (hxy.trans hy), bind_of_error hy]
      exact Or.inl rfl
  · exact Or.inr ⟨e, t, he, bind_of_error hx k⟩

theorem ite {p : Prop} [Decidable p] {x x' y y' : EStateM ε σ α} (h : Approximates cut x y)
    (h' : Approximates cut x' y') :
    Approximates cut (if p then x else x') (if p then y else y') := by
  by_cases hp : p
  · rw [if_pos hp, if_pos hp]
    exact h
  · rw [if_neg hp, if_neg hp]
    exact h'

/-- What is not cut off ends in the same way. -/
theorem eq_of_ne {x y : EStateM ε σ α} (h : Approximates cut x y) {s : σ}
    (hne : ∀ e t, x s = .error e t → ¬ cut e) : y s = x s := by
  rcases h s with heq | ⟨e, t, he, ht⟩
  · exact heq.symm
  · exact absurd he (hne e t ht)

end Approximates

end SmallScheme
