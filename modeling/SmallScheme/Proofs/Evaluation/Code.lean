import Mathlib.Logic.Relation
import SmallScheme.Evaluation.Basic
import SmallScheme.Proofs.Evaluation.Syntax

/-!
# The code in an expression

Not everything in an expression is code. What is evaluated along with it, or later, when a
procedure that it makes is called, is code (`InCode`); quoted data, keywords, parameters and
the names that are defined or assigned are not. An expression that is no form of correct
shape holds no code but itself, for none of its parts is ever evaluated. Neither does a
procedure definition whose parameters are no list of symbols, for it makes no procedure.

Code assigns a name if an assignment to it stands there (`Assigns`), and refers to a name if
it stands there as a variable or is assigned (`Refers`).
-/

namespace SmallScheme

open Relation

/-- `CodePart x e`: the expression `x` is a part of the expression `e` that is evaluated with
`e` or in a call of a procedure that `e` makes. -/
inductive CodePart : Value → Value → Prop where
  /-- The value of an assignment. -/
  | assigned {e x : Value} {n : Symbol} (h : IsForm e (.assign n x)) : CodePart x e
  /-- The value of a definition. -/
  | value {e x : Value} {n : Symbol} (h : IsForm e (.define n x)) : CodePart x e
  /-- A form of the body in a procedure definition. -/
  | procedure {e x params forms : Value} {n : Symbol}
      (h : IsForm e (.defineProcedure n params forms)) (hp : params.IsSymbolList)
      (hx : x ∈ forms.elements) : CodePart x e
  /-- The test of a conditional. -/
  | test {e test x : Value} {y : Option Value} (h : IsForm e (.conditional test x y)) :
      CodePart test e
  /-- The consequent of a conditional. -/
  | consequent {e test x : Value} {y : Option Value} (h : IsForm e (.conditional test x y)) :
      CodePart x e
  /-- The alternative of a conditional. -/
  | alternative {e test x y : Value} (h : IsForm e (.conditional test x (some y))) : CodePart y e
  /-- A form of the body in a `lambda` expression. -/
  | form {e x params forms : Value} (h : IsForm e (.lambda params forms))
      (hx : x ∈ forms.elements) : CodePart x e
  /-- The operator of an application. -/
  | operator {m : Nat} {first rest : Value} (h : first.keyword? = none) :
      CodePart first (.pair m first rest)
  /-- An operand of an application. -/
  | operand {m : Nat} {first rest x : Value} (h : first.keyword? = none)
      (hx : x ∈ rest.elements) : CodePart x (.pair m first rest)

/-- `InCode x e`: the expression `x` is `e` itself or stands in it as code. -/
abbrev InCode : Value → Value → Prop := ReflTransGen CodePart

/-- The expression holds an assignment to `n`. -/
def Assigns (n : Symbol) (e : Value) : Prop := ∃ x y, InCode x e ∧ IsForm x (.assign n y)

/-- The expression refers to `n`: it holds the symbol as a variable, or an assignment to it. -/
def Refers (n : Symbol) (e : Value) : Prop := InCode (.symbol n) e ∨ Assigns n e

theorem CodePart.exists_pair {x e : Value} (h : CodePart x e) :
    ∃ m first rest, e = .pair m first rest := by
  cases h with
  | assigned h | value h | procedure h | test h | consequent h | alternative h | form h =>
    obtain ⟨m, k, rest, rfl, -⟩ := h.parse
    exact ⟨_, _, _, rfl⟩
  | operator | operand => exact ⟨_, _, _, rfl⟩

section NoPair

variable {e : Value} (he : ∀ m first rest, e ≠ .pair m first rest)
include he

/-- What is no pair holds no code but itself. -/
theorem InCode.eq_of_not_pair {x : Value} (h : InCode x e) : x = e := by
  rcases h.cases_tail with rfl | ⟨y, -, hy⟩
  · rfl
  · obtain ⟨m, first, rest, hp⟩ := hy.exists_pair
    exact absurd hp (he m first rest)

theorem not_assigns_of_not_pair {n : Symbol} : ¬ Assigns n e := by
  rintro ⟨x, y, hx, hy⟩
  obtain ⟨m, k, rest, hp, -⟩ := hy.parse
  exact he m _ rest ((InCode.eq_of_not_pair he hx).symm.trans hp)

end NoPair

/-! ### Single forms -/

/-- An expression spells at most one form. -/
theorem IsForm.unique {e : Value} {form form' : Form} (h : IsForm e form) (h' : IsForm e form') :
    form = form' := by
  obtain ⟨m, k, rest, rfl, hp⟩ := h.parse
  obtain ⟨k', hk, hp'⟩ := isForm_pair_iff.1 h'
  obtain rfl : k = k' := Option.some.inj (k.keyword?_symbol.symm.trans hk)
  exact Except.ok.inj (hp.symm.trans hp')

/-- The value of a procedure definition is that of a `lambda` expression, if its parameters are
those of a procedure. -/
theorem IsForm.lambdaExpression {e params forms : Value} {n : Symbol}
    (h : IsForm e (.defineProcedure n params forms)) (hp : params.IsSymbolList) (m : Nat) :
    IsForm (Evaluation.lambdaExpression m params forms) (.lambda params forms) := by
  cases h with
  | defineProcedure hb => exact .lambda hp hb

/-- The code in a `lambda` expression is that of the forms of its body. -/
theorem IsForm.exists_inCode_of_lambda {x e params forms : Value}
    (h : IsForm e (.lambda params forms)) (hx : InCode x e) (hne : x ≠ e) :
    ∃ y ∈ forms.elements, InCode x y := by
  rcases hx.cases_tail with rfl | ⟨y, hxy, hy⟩
  · exact absurd rfl hne
  · cases hy with
    | form h' hm =>
      cases h.unique h'
      exact ⟨y, hm, hxy⟩
    | assigned h' | value h' | procedure h' | test h' | consequent h' | alternative h' =>
      cases h.unique h'
    | operator hk | operand hk => exact absurd hk h.keyword?_ne_none

/-- A pair that is headed by a keyword and spells no form holds no code but itself. -/
theorem InCode.eq_of_not_isForm {x first rest : Value} {m : Nat} {k : Keyword}
    (hx : InCode x (.pair m first rest)) (hk : first.keyword? = some k)
    (h : ∀ form, ¬ IsForm (.pair m first rest) form) : x = .pair m first rest := by
  rcases hx.cases_tail with rfl | ⟨y, -, hy⟩
  · rfl
  · cases hy with
    | assigned h' | value h' | procedure h' | test h' | consequent h' | alternative h'
    | form h' => exact absurd h' (h _)
    | operator hk' | operand hk' => cases hk.symm.trans hk'

end SmallScheme
