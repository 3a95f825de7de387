import SmallScheme.Evaluation.Basic
import SmallScheme.Proofs.Sequencing

/-!
# The bounds of an evaluation

`evaluate` is bounded by `nesting` and by `rounds`. A bound does nothing but cut an
evaluation off: with a greater bound the evaluation either ends in the same way, or it
had been cut off by the smaller one. The error `depth` stands for the first bound and
`unfinished` for the second, and each bound has only its own error to show for it.

`Approximates` says this of any two computations. It passes from the evaluator of the
subexpressions to a round (`approximates_round`), and so to the whole evaluation
(`approximates_nesting`, `approximates_rounds`).
-/

namespace SmallScheme

open Sequencing

namespace Evaluation

variable {cut : Error → Prop} {ev ev' : Evaluator}

theorem approximates_operands (h : ∀ e f, Approximates cut (ev e f) (ev' e f)) (f : FrameId)
    (es : Value) : Approximates cut (operands ev f es) (operands ev' f es) := by
  induction es with
  | pair m e es _ ih =>
    simp only [operands]
    exact (h e f).bind fun v => ih.bind fun vs => .refl _
  | _ => exact .refl _

theorem approximates_body (h : ∀ e f, Approximates cut (ev e f) (ev' e f)) (f : FrameId)
    (forms : Value) : Approximates cut (body ev f forms) (body ev' f forms) := by
  fun_induction body ev f forms with
  | case1 m e => exact .refl _
  | case2 m e es hes ih =>
    rw [body]
    · exact (h e f).bind fun _ => ih
    · exact hes
  | case3 forms hlast hpair =>
    rw [body]
    · exact .refl _
    · exact hlast
    · exact hpair

theorem approximates_apply (h : ∀ e f, Approximates cut (ev e f) (ev' e f)) (p args : Value) :
    Approximates cut (apply ev p args) (apply ev' p args) := by
  cases p with
  | closure m params forms f =>
    exact (Approximates.refl _).bind fun g => approximates_body h g forms
  | _ => exact .refl _

theorem approximates_special (h : ∀ e f, Approximates cut (ev e f) (ev' e f)) (f : FrameId)
    (form : Form) : Approximates cut (special ev f form) (special ev' f form) := by
  cases form with
  | quote d => exact .refl _
  | assign n e => exact (h e f).bind fun v => .refl _
  | define n e => exact (h e f).bind fun v => .refl _
  | defineProcedure n params forms =>
    exact (Approximates.refl _).bind fun m => (h _ f).bind fun v => .refl _
  | conditional test x y => exact (h test f).bind fun v => .refl _
  | lambda params forms => exact .refl _

theorem approximates_application (h : ∀ e f, Approximates cut (ev e f) (ev' e f)) (f : FrameId)
    (first rest : Value) :
    Approximates cut (application ev f first rest) (application ev' f first rest) :=
  (h first f).bind fun p => (approximates_operands h f rest).bind fun _ =>
    (Approximates.refl _).bind fun args => approximates_apply h p args

/-- A round is cut off only where the evaluator of its subexpressions is. -/
theorem approximates_round (h : ∀ e f, Approximates cut (ev e f) (ev' e f)) (e : Value)
    (f : FrameId) : Approximates cut (round ev e f) (round ev' e f) := by
  cases e with
  | pair m first rest =>
    simp only [round]
    cases first.keyword? with
    | none => exact approximates_application h f first rest
    | some k => exact (Approximates.refl _).bind fun form => approximates_special h f form
  | _ => exact .refl _

/-! ### The loop -/

/-- The evaluator of the subexpressions of an expression that is evaluated with the given
bounds. -/
def inner (rounds : Nat) : (nesting : Nat) → Evaluator
  | 0 => fun _ _ => throw .depth
  | nesting + 1 => evaluate rounds nesting

/-- What the loop does with what a round leaves to do. -/
def proceed (rounds nesting : Nat) : Next → EvalM Value
  | .done v => return v
  | .tail e f => evaluate rounds nesting e f

/-- The loop: one round, and then what it leaves to do. -/
theorem evaluate_succ (rounds nesting : Nat) (e : Value) (f : FrameId) :
    evaluate (rounds + 1) nesting e f =
      round (inner rounds nesting) e f >>= proceed rounds nesting := by
  cases nesting <;> rfl

theorem evaluate_zero (nesting : Nat) (e : Value) (f : FrameId) :
    evaluate 0 nesting e f = throw .unfinished := by
  rw [evaluate]

theorem approximates_succ {rounds rounds' nesting nesting' : Nat}
    (hi : ∀ e f, Approximates cut (inner rounds nesting e f) (inner rounds' nesting' e f))
    (ht : ∀ e f, Approximates cut (evaluate rounds nesting e f) (evaluate rounds' nesting' e f))
    (e : Value) (f : FrameId) :
    Approximates cut (evaluate (rounds + 1) nesting e f) (evaluate (rounds' + 1) nesting' e f) := by
  rw [evaluate_succ, evaluate_succ]
  refine (approximates_round hi e f).bind fun next => ?_
  cases next with
  | done v => exact .refl _
  | tail e f => exact ht e f

/-- **Nesting only decides whether an evaluation is too deep.** With more levels allowed an
evaluation ends in the same way, unless it was too deep before. -/
theorem approximates_nesting {rounds nesting nesting' : Nat} (h : nesting ≤ nesting') (e : Value)
    (f : FrameId) :
    Approximates (· = .depth) (evaluate rounds nesting e f) (evaluate rounds nesting' e f) := by
  induction rounds generalizing nesting nesting' e f with
  | zero =>
    rw [evaluate_zero, evaluate_zero]
    exact .refl _
  | succ rounds ih =>
    refine approximates_succ (fun e f => ?_) (ih h) e f
    cases nesting with
    | zero => exact fun s => .inr ⟨_, s, rfl, rfl⟩
    | succ nesting =>
      obtain ⟨k, rfl⟩ : ∃ k, nesting' = k + 1 := ⟨nesting' - 1, by omega⟩
      exact ih (by omega) e f

/-- **Rounds only decide whether an evaluation is cut off.** With more rounds allowed an
evaluation ends in the same way, unless it was cut off before. -/
theorem approximates_rounds {rounds rounds' nesting : Nat} (h : rounds ≤ rounds') (e : Value)
    (f : FrameId) :
    Approximates (· = .unfinished) (evaluate rounds nesting e f)
      (evaluate rounds' nesting e f) := by
  induction rounds generalizing rounds' nesting e f with
  | zero =>
    rw [evaluate_zero]
    exact fun s => .inr ⟨_, s, rfl, rfl⟩
  | succ rounds ih =>
    obtain ⟨k, rfl⟩ : ∃ k, rounds' = k + 1 := ⟨rounds' - 1, by omega⟩
    refine approximates_succ (fun e f => ?_) (ih (by omega)) e f
    cases nesting with
    | zero => exact .refl _
    | succ nesting => exact ih (by omega) e f

end Evaluation

end SmallScheme
