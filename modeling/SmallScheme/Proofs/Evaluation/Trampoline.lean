import Mathlib.Order.Filter.AtTopBot.Basic
import SmallScheme.Proofs.Evaluation.Errors
import SmallScheme.Proofs.Evaluation.Limits

/-!
# The loop follows the rules

`evaluate` goes in rounds and leaves the expression in tail position to the next round;
the rules of `BigStep` know neither rounds nor tail positions. Both say the same. Whatever
the rules derive, the loop ends with, as soon as it may nest as deep as the derivation
does (`Evaluates.complete`); and whatever the loop ends with has a derivation that nests
no deeper than was allowed (`exists_evaluates`). The number of rounds does not matter,
only that there are enough of them.
-/

namespace SmallScheme

open Sequencing Evaluation Filter

namespace BigStep

variable {e first rest x p args forms : Value} {f g : FrameId} {s : Store}

/-! ### One round -/

/-- A round of a special form evaluates the form. -/
theorem round_of_isForm {form : Form} (h : IsForm e form) (ev : Evaluator) (f : FrameId) :
    Evaluation.round ev e f = special ev f form := by
  obtain ⟨m, k, rest, rfl, hk⟩ := h.parse
  simp only [Evaluation.round, Object.keyword?, Keyword.keyword?_symbol, hk]
  rfl

theorem round_of_malformed {m : Nat} {k : Keyword} {err : Error} (hk : first.keyword? = some k)
    (h : Form.parse k rest = .error err) (ev : Evaluator) (f : FrameId) :
    Evaluation.round ev (.pair m first rest) f = throw err := by
  simp only [Evaluation.round, hk, h]
  rfl

theorem round_of_application {m : Nat} (hk : first.keyword? = none) (ev : Evaluator)
    (f : FrameId) : Evaluation.round ev (.pair m first rest) f = application ev f first rest := by
  simp only [Evaluation.round, hk]

theorem round_of_isLiteral (h : IsLiteral e) (ev : Evaluator) (f : FrameId) :
    Evaluation.round ev e f = return .done e := by
  cases e <;> first | rfl | exact h.elim

theorem round_of_isNoExpression (h : IsNoExpression e) (ev : Evaluator) (f : FrameId) :
    Evaluation.round ev e f = throw (.notExpression e) := by
  cases e <;> first | rfl | exact h.elim

theorem operands_of_isAtom (h : x.IsAtom) (hn : x ≠ .nil) (ev : Evaluator) (f : FrameId) :
    operands ev f x = throw .improperOperands := by
  cases x with
  | nil => exact absurd rfl hn
  | pair m a d => exact absurd rfl (h m a d)
  | _ => rfl

theorem body_of_isAtom (h : forms.IsAtom) (ev : Evaluator) (f : FrameId) :
    body ev f forms = throw .lambdaShape := by
  cases forms with
  | pair m a d => exact absurd rfl (h m a d)
  | _ => rfl

theorem body_cons {m : Nat} (h : rest ≠ .nil) (ev : Evaluator) (f : FrameId) :
    body ev f (.pair m e rest) = (do let _ ← ev e f; body ev f rest) := by
  rw [body]
  exact fun hn => h hn

theorem apply_of_not_isProcedure (h : p.isProcedure = false) (ev : Evaluator) (args : Value) :
    apply ev p args = throw (.notProcedure p) := by
  cases p <;> first | rfl | cases h

/-! ### What the rules derive, the loop ends with -/

/-- If there are enough rounds for what follows the first one, there are enough for all. -/
theorem eventually_of_round {r : Outcome Value} {nesting : Nat}
    (h : ∀ᶠ k in atTop, (Evaluation.round (inner k nesting) e f >>= proceed k nesting) s = r) :
    ∀ᶠ k in atTop, evaluate k nesting e f s = r := by
  rw [eventually_atTop] at h ⊢
  obtain ⟨b, hb⟩ := h
  refine ⟨b + 1, fun k hk => ?_⟩
  obtain ⟨k, rfl⟩ : ∃ j, k = j + 1 := ⟨k - 1, by omega⟩
  rw [evaluate_succ]
  exact hb k (by omega)

/-- A subexpression has one level fewer to nest. -/
theorem eventually_inner {r : Outcome Value} {depth nesting : Nat}
    (ih : ∀ {n}, depth ≤ n → ∀ᶠ k in atTop, evaluate k n e f s = r) (h : depth + 1 ≤ nesting) :
    ∀ᶠ k in atTop, inner k nesting e f s = r := by
  obtain ⟨n, rfl⟩ : ∃ n, nesting = n + 1 := ⟨nesting - 1, by omega⟩
  exact ih (by omega)

mutual

/-- **What the rules derive, the loop ends with**, if it may nest as deep as the derivation
does and goes round often enough. -/
theorem Evaluates.complete : ∀ {e : Value} {f : FrameId} {s : Store} {r : Outcome Value}
    (d : Evaluates e f s r) {nesting : Nat}, d.nesting ≤ nesting →
      ∀ᶠ k in atTop, evaluate k nesting e f s = r
  | _, _, _, _, .literal he, _, _ => by
    apply eventually_of_round
    refine .of_forall fun k => ?_
    simp only [round_of_isLiteral he, bind_apply, pure_apply, proceed]
  | _, _, _, _, .bound hn, _, _ => by
    apply eventually_of_round
    refine .of_forall fun k => ?_
    simp only [Evaluation.round, EvalM.lookup, Store.lookup, hn, EvalM.ofExcept, bind_apply,
      get_apply, pure_apply, proceed]
  | _, _, _, _, .unbound hn, _, _ => by
    apply eventually_of_round
    refine .of_forall fun k => ?_
    simp only [Evaluation.round, EvalM.lookup, Store.lookup, hn, EvalM.ofExcept, bind_apply,
      get_apply, throw_apply]
  | _, _, _, _, .notExpression he, _, _ => by
    apply eventually_of_round
    refine .of_forall fun k => ?_
    simp only [round_of_isNoExpression he, bind_apply, throw_apply]
  | _, _, _, _, .malformed hk hp, _, _ => by
    apply eventually_of_round
    refine .of_forall fun k => ?_
    simp only [round_of_malformed hk hp, bind_apply, throw_apply]
  | _, _, _, _, .quote he, _, _ => by
    apply eventually_of_round
    refine .of_forall fun k => ?_
    simp only [round_of_isForm he, special, bind_apply, pure_apply, proceed]
  | _, _, _, _, .lambda he, _, _ => by
    apply eventually_of_round
    refine .of_forall fun k => ?_
    simp only [round_of_isForm he, special, close, EvalM.marks, bind_apply, modifyGet_apply,
      pure_apply, proceed]
  | _, _, _, _, .assign he d hg, _, h => by
    apply eventually_of_round
    filter_upwards [eventually_inner d.complete h] with k hd
    simp only [round_of_isForm he, special, bind_apply, hd, EvalM.assign, Store.assign, hg,
      pure_apply, proceed]
  | _, _, _, _, .assignUnbound he d hg, _, h => by
    apply eventually_of_round
    filter_upwards [eventually_inner d.complete h] with k hd
    simp only [round_of_isForm he, special, bind_apply, hd, EvalM.assign, Store.assign, hg]
  | _, _, _, _, .assignFails he d, _, h => by
    apply eventually_of_round
    filter_upwards [eventually_inner d.complete h] with k hd
    simp only [round_of_isForm he, special, bind_apply, hd]
  | _, _, _, _, .define he d hf, _, h => by
    apply eventually_of_round
    filter_upwards [eventually_inner d.complete h] with k hd
    simp only [round_of_isForm he, special, bind_apply, hd, EvalM.define, Store.define, if_neg hf,
      pure_apply, proceed]
  | _, _, _, _, .defineRefused he d hf, _, h => by
    apply eventually_of_round
    filter_upwards [eventually_inner d.complete h] with k hd
    simp only [round_of_isForm he, special, bind_apply, hd, EvalM.define, Store.define, if_pos hf]
  | _, _, _, _, .defineFails he d, _, h => by
    apply eventually_of_round
    filter_upwards [eventually_inner d.complete h] with k hd
    simp only [round_of_isForm he, special, bind_apply, hd]
  | _, _, _, _, .defineProcedure he d hf, _, h => by
    apply eventually_of_round
    filter_upwards [eventually_inner d.complete h] with k hd
    simp only [round_of_isForm he, special, bind_apply, EvalM.marks, modifyGet_apply, hd,
      EvalM.define, Store.define, if_neg hf, pure_apply, proceed]
  | _, _, _, _, .defineProcedureRefused he d hf, _, h => by
    apply eventually_of_round
    filter_upwards [eventually_inner d.complete h] with k hd
    simp only [round_of_isForm he, special, bind_apply, EvalM.marks, modifyGet_apply, hd,
      EvalM.define, Store.define, if_pos hf]
  | _, _, _, _, .defineProcedureFails he d, _, h => by
    apply eventually_of_round
    filter_upwards [eventually_inner d.complete h] with k hd
    simp only [round_of_isForm he, special, bind_apply, EvalM.marks, modifyGet_apply, hd]
  | _, _, _, _, .consequent he d c, _, h => by
    obtain ⟨hd, hc⟩ := Nat.max_le.1 h
    apply eventually_of_round
    filter_upwards [eventually_inner d.complete hd, c.complete hc] with k hd hc
    simp only [round_of_isForm he, special, bind_apply, hd, pure_apply, proceed, hc]
  | _, _, _, _, .alternative he d hv c, _, h => by
    obtain ⟨hd, hc⟩ := Nat.max_le.1 h
    apply eventually_of_round
    filter_upwards [eventually_inner d.complete hd, c.complete hc] with k hd hc
    simp only [round_of_isForm he, special, bind_apply, hd, pure_apply, proceed, hc]
  | _, _, _, _, .noAlternative he d hv, _, h => by
    apply eventually_of_round
    filter_upwards [eventually_inner d.complete h] with k hd
    simp only [round_of_isForm he, special, bind_apply, hd, pure_apply, proceed]
  | _, _, _, _, .testFails he d, _, h => by
    apply eventually_of_round
    filter_upwards [eventually_inner d.complete h] with k hd
    simp only [round_of_isForm he, special, bind_apply, hd]
  | _, _, _, _, .application hk d ds a, _, h => by
    obtain ⟨hd, h⟩ := Nat.max_le.1 h
    obtain ⟨hds, ha⟩ := Nat.max_le.1 h
    apply eventually_of_round
    filter_upwards [eventually_inner d.complete hd, ds.complete hds, a.complete ha] with k hd hds ha
    rw [bind_apply] at ha
    simp only [round_of_application hk, application, argumentList, EvalM.marks, bind_apply, hd, hds,
      modifyGet_apply, pure_apply, ha]
  | _, _, _, _, .operatorFails hk d, _, h => by
    apply eventually_of_round
    filter_upwards [eventually_inner d.complete h] with k hd
    simp only [round_of_application hk, application, bind_apply, hd]
  | _, _, _, _, .operandsFail hk d ds, _, h => by
    obtain ⟨hd, hds⟩ := Nat.max_le.1 h
    apply eventually_of_round
    filter_upwards [eventually_inner d.complete hd, ds.complete hds] with k hd hds
    simp only [round_of_application hk, application, bind_apply, hd, hds]

theorem Operands.complete : ∀ {es : Value} {f : FrameId} {s : Store} {r : Outcome (List Value)}
    (ds : Operands es f s r) {nesting : Nat}, ds.nesting ≤ nesting →
      ∀ᶠ k in atTop, operands (inner k nesting) f es s = r
  | _, _, _, _, .nil, _, _ => .of_forall fun _ => rfl
  | _, _, _, _, .improper ha hn, _, _ => by
    refine .of_forall fun k => ?_
    rw [operands_of_isAtom ha hn, throw_apply]
  | _, _, _, _, .cons d ds, _, h => by
    obtain ⟨hd, hds⟩ := Nat.max_le.1 h
    filter_upwards [eventually_inner d.complete hd, ds.complete hds] with k hd hds
    simp only [operands, bind_apply, hd, hds, pure_apply]
  | _, _, _, _, .fails d, _, h => by
    filter_upwards [eventually_inner d.complete h] with k hd
    simp only [operands, bind_apply, hd]
  | _, _, _, _, .restFails d ds, _, h => by
    obtain ⟨hd, hds⟩ := Nat.max_le.1 h
    filter_upwards [eventually_inner d.complete hd, ds.complete hds] with k hd hds
    simp only [operands, bind_apply, hd, hds]

theorem Applies.complete : ∀ {p args : Value} {s : Store} {r : Outcome Value}
    (a : Applies p args s r) {nesting : Nat}, a.nesting ≤ nesting →
      ∀ᶠ k in atTop, (apply (inner k nesting) p args >>= proceed k nesting) s = r
  | _, _, _, _, .primitive hp, _, _ => by
    refine .of_forall fun k => ?_
    simp only [apply, bind_apply, EvalM.marks, modifyGet_apply, hp, EvalM.ofExcept, pure_apply,
      proceed]
  | _, _, _, _, .primitiveFails hp, _, _ => by
    refine .of_forall fun k => ?_
    simp only [apply, bind_apply, EvalM.marks, modifyGet_apply, hp, EvalM.ofExcept, throw_apply]
  | _, _, _, _, .closure hx d, _, h => by
    filter_upwards [d.complete h] with k hd
    rw [bind_apply] at hd
    simp only [apply, bind_apply, EvalM.extend, hx, hd]
  | _, _, _, _, .closureFails hx, _, _ => by
    refine .of_forall fun k => ?_
    simp only [apply, bind_apply, EvalM.extend, hx]
  | _, _, _, _, .notProcedure hp, _, _ => by
    refine .of_forall fun k => ?_
    simp only [apply_of_not_isProcedure hp, bind_apply, throw_apply]

theorem Runs.complete : ∀ {forms : Value} {f : FrameId} {s : Store} {r : Outcome Value}
    (d : Runs forms f s r) {nesting : Nat}, d.nesting ≤ nesting →
      ∀ᶠ k in atTop, (body (inner k nesting) f forms >>= proceed k nesting) s = r
  | _, _, _, _, .last d, _, h => d.complete h
  | _, _, _, _, .cons hes d ds, _, h => by
    obtain ⟨hd, hds⟩ := Nat.max_le.1 h
    filter_upwards [eventually_inner d.complete hd, ds.complete hds] with k hd hds
    rw [bind_apply] at hds
    simp only [body_cons hes, bind_apply, hd, hds]
  | _, _, _, _, .fails hes d, _, h => by
    filter_upwards [eventually_inner d.complete h] with k hd
    simp only [body_cons hes, bind_apply, hd]
  | _, _, _, _, .noForms hf, _, _ => by
    refine .of_forall fun k => ?_
    simp only [body_of_isAtom hf, bind_apply, throw_apply]

end

/-- The rules give an expression at most one outcome. -/
theorem Evaluates.outcome_unique {r r' : Outcome Value} (d : Evaluates e f s r)
    (d' : Evaluates e f s r') : r = r' := by
  have h := d.complete (Nat.le_max_left d.nesting d'.nesting)
  have h' := d'.complete (Nat.le_max_right d.nesting d'.nesting)
  obtain ⟨k, hk, hk'⟩ := (h.and h').exists
  exact hk.symm.trans hk'

/-! ### What the loop ends with, the rules derive -/

/-- The computation came to its own end: neither bound has cut it off. -/
def Finished {α : Type} : Outcome α → Prop
  | .ok _ _ => True
  | .error e _ => e ≠ .depth ∧ e ≠ .unfinished

section Round

variable {rounds nesting : Nat} {r : Outcome Value}

/-- The finished outcomes of an evaluator of subexpressions have derivations that leave room
for the level of the subexpression. -/
def Derivable (nesting : Nat) (ev : Evaluator) : Prop :=
  ∀ {e : Value} {f : FrameId} {s : Store} {r : Outcome Value}, ev e f s = r → Finished r →
    ∃ d : Evaluates e f s r, d.nesting + 1 ≤ nesting

theorem exists_operands {ev : Evaluator} (hev : Derivable nesting ev) {es : Value}
    {r : Outcome (List Value)} (h : operands ev f es s = r) (hr : Finished r) :
    ∃ ds : Operands es f s r, ds.nesting ≤ nesting := by
  induction es generalizing s r with
  | pair m e es _ ih =>
    simp only [operands] at h
    cases he : ev e f s with
    | error err t =>
      simp only [bind_apply, he] at h
      subst h
      obtain ⟨d, hd⟩ := hev he hr
      exact ⟨.fails d, hd⟩
    | ok v t =>
      obtain ⟨d, hd⟩ := hev he trivial
      cases hes : operands ev f es t with
      | error err u =>
        simp only [bind_apply, he, hes] at h
        subst h
        obtain ⟨ds, hds⟩ := ih hes hr
        exact ⟨.restFails d ds, Nat.max_le.2 ⟨hd, hds⟩⟩
      | ok vs u =>
        simp only [bind_apply, he, hes, pure_apply] at h
        subst h
        obtain ⟨ds, hds⟩ := ih hes trivial
        exact ⟨.cons d ds, Nat.max_le.2 ⟨hd, hds⟩⟩
  | nil =>
    subst h
    exact ⟨.nil, Nat.zero_le _⟩
  | _ =>
    subst h
    exact ⟨.improper (by simp [Object.IsAtom]) (by simp), Nat.zero_le _⟩

variable (hin : Derivable nesting (inner rounds nesting))
  (hgo : ∀ {e f s r}, evaluate rounds nesting e f s = r → Finished r →
    ∃ d : Evaluates e f s r, d.nesting ≤ nesting)

include hin hgo

theorem exists_runs (h : (body (inner rounds nesting) f forms >>= proceed rounds nesting) s = r)
    (hr : Finished r) : ∃ d : Runs forms f s r, d.nesting ≤ nesting := by
  induction forms generalizing s with
  | pair m e es _ ih =>
    by_cases hes : es = .nil
    · subst hes
      obtain ⟨d, hd⟩ := hgo h hr
      exact ⟨.last d, hd⟩
    · rw [body_cons hes] at h
      cases he : inner rounds nesting e f s with
      | error err t =>
        simp only [bind_apply, he] at h
        subst h
        obtain ⟨d, hd⟩ := hin he hr
        exact ⟨.fails hes d, hd⟩
      | ok v t =>
        obtain ⟨d, hd⟩ := hin he trivial
        simp only [bind_apply, he] at h
        obtain ⟨ds, hds⟩ := ih h
        exact ⟨.cons hes d ds, Nat.max_le.2 ⟨hd, hds⟩⟩
  | _ =>
    subst h
    exact ⟨.noForms (by simp [Object.IsAtom]), Nat.zero_le _⟩

theorem exists_applies
    (h : (apply (inner rounds nesting) p args >>= proceed rounds nesting) s = r)
    (hr : Finished r) : ∃ a : Applies p args s r, a.nesting ≤ nesting := by
  cases p with
  | primitive m p =>
    cases hp : p.apply args s.fresh with
    | error err =>
      simp only [apply, bind_apply, EvalM.marks, modifyGet_apply, hp, EvalM.ofExcept,
        throw_apply] at h
      subst h
      exact ⟨.primitiveFails hp, Nat.zero_le _⟩
    | ok v =>
      simp only [apply, bind_apply, EvalM.marks, modifyGet_apply, hp, EvalM.ofExcept, pure_apply,
        proceed] at h
      subst h
      exact ⟨.primitive hp, Nat.zero_le _⟩
  | closure m params forms f =>
    cases hx : s.extend params args f with
    | error err =>
      simp only [apply, bind_apply, EvalM.extend, hx] at h
      subst h
      exact ⟨.closureFails hx, Nat.zero_le _⟩
    | ok pushed =>
      obtain ⟨g, t⟩ := pushed
      simp only [apply, bind_apply, EvalM.extend, hx] at h
      obtain ⟨d, hd⟩ := exists_runs hin hgo h hr
      exact ⟨.closure hx d, hd⟩
  | _ =>
    subst h
    exact ⟨.notProcedure rfl, Nat.zero_le _⟩

theorem exists_evaluates_of_isForm {form : Form} (he : IsForm e form)
    (h : (special (inner rounds nesting) f form >>= proceed rounds nesting) s = r)
    (hr : Finished r) : ∃ d : Evaluates e f s r, d.nesting ≤ nesting := by
  cases form with
  | quote d =>
    subst h
    exact ⟨.quote he, Nat.zero_le _⟩
  | lambda params forms =>
    subst h
    exact ⟨.lambda he, Nat.zero_le _⟩
  | assign n x =>
    cases hx : inner rounds nesting x f s with
    | error err t =>
      simp only [special, bind_apply, hx] at h
      subst h
      obtain ⟨d, hd⟩ := hin hx hr
      exact ⟨.assignFails he d, hd⟩
    | ok v t =>
      obtain ⟨d, hd⟩ := hin hx trivial
      cases hg : t.find? f n with
      | none =>
        simp only [special, bind_apply, hx, EvalM.assign, Store.assign, hg] at h
        subst h
        exact ⟨.assignUnbound he d hg, hd⟩
      | some g =>
        simp only [special, bind_apply, hx, EvalM.assign, Store.assign, hg, pure_apply,
          proceed] at h
        subst h
        exact ⟨.assign he d hg, hd⟩
  | define n x =>
    cases hx : inner rounds nesting x f s with
    | error err t =>
      simp only [special, bind_apply, hx] at h
      subst h
      obtain ⟨d, hd⟩ := hin hx hr
      exact ⟨.defineFails he d, hd⟩
    | ok v t =>
      obtain ⟨d, hd⟩ := hin hx trivial
      by_cases hf : f = Store.empty
      · simp only [special, bind_apply, hx, EvalM.define, Store.define, if_pos hf] at h
        subst h
        exact ⟨.defineRefused he d hf, hd⟩
      · simp only [special, bind_apply, hx, EvalM.define, Store.define, if_neg hf, pure_apply,
          proceed] at h
        subst h
        exact ⟨.define he d hf, hd⟩
  | defineProcedure n params forms =>
    simp only [special, bind_apply, EvalM.marks, modifyGet_apply] at h
    cases hx : inner rounds nesting (lambdaExpression s.fresh params forms) f
        { s with fresh := s.fresh + 2 } with
    | error err t =>
      simp only [hx] at h
      subst h
      obtain ⟨d, hd⟩ := hin hx hr
      exact ⟨.defineProcedureFails he d, hd⟩
    | ok v t =>
      obtain ⟨d, hd⟩ := hin hx trivial
      simp only [hx] at h
      by_cases hf : f = Store.empty
      · simp only [EvalM.define, Store.define, if_pos hf] at h
        subst h
        exact ⟨.defineProcedureRefused he d hf, hd⟩
      · simp only [EvalM.define, Store.define, if_neg hf, pure_apply, proceed] at h
        subst h
        exact ⟨.defineProcedure he d hf, hd⟩
  | conditional test x y =>
    cases ht : inner rounds nesting test f s with
    | error err t =>
      simp only [special, bind_apply, ht] at h
      subst h
      obtain ⟨d, hd⟩ := hin ht hr
      exact ⟨.testFails he d, hd⟩
    | ok v t =>
      obtain ⟨d, hd⟩ := hin ht trivial
      by_cases hv : v = .boolean true
      · subst hv
        simp only [special, bind_apply, ht, pure_apply, proceed] at h
        obtain ⟨c, hc⟩ := hgo h hr
        exact ⟨.consequent he d c, Nat.max_le.2 ⟨hd, hc⟩⟩
      · cases y with
        | none =>
          simp only [special, bind_apply, ht, pure_apply, proceed] at h
          subst h
          exact ⟨.noAlternative he d hv, hd⟩
        | some y =>
          simp only [special, bind_apply, ht, pure_apply, proceed] at h
          obtain ⟨c, hc⟩ := hgo h hr
          exact ⟨.alternative he d hv c, Nat.max_le.2 ⟨hd, hc⟩⟩

theorem exists_evaluates_of_application {m : Nat} (hk : first.keyword? = none)
    (h : (application (inner rounds nesting) f first rest >>= proceed rounds nesting) s = r)
    (hr : Finished r) : ∃ d : Evaluates (.pair m first rest) f s r, d.nesting ≤ nesting := by
  cases hp : inner rounds nesting first f s with
  | error err t =>
    simp only [application, bind_apply, hp] at h
    subst h
    obtain ⟨d, hd⟩ := hin hp hr
    exact ⟨.operatorFails hk d, hd⟩
  | ok p t =>
    obtain ⟨d, hd⟩ := hin hp trivial
    cases hvs : operands (inner rounds nesting) f rest t with
    | error err u =>
      simp only [application, bind_apply, hp, hvs] at h
      subst h
      obtain ⟨ds, hds⟩ := exists_operands hin hvs hr
      exact ⟨.operandsFail hk d ds, Nat.max_le.2 ⟨hd, hds⟩⟩
    | ok vs u =>
      obtain ⟨ds, hds⟩ := exists_operands hin hvs trivial
      simp only [application, argumentList, EvalM.marks, bind_apply, hp, hvs, modifyGet_apply,
        pure_apply] at h
      obtain ⟨a, ha⟩ := exists_applies hin hgo h hr
      exact ⟨.application hk d ds a, Nat.max_le.2 ⟨hd, Nat.max_le.2 ⟨hds, ha⟩⟩⟩

/-- A round and what it leaves to do follow the rules if the subexpressions do. -/
theorem exists_evaluates_of_round
    (h : (Evaluation.round (inner rounds nesting) e f >>= proceed rounds nesting) s = r)
    (hr : Finished r) : ∃ d : Evaluates e f s r, d.nesting ≤ nesting := by
  cases e with
  | symbol n =>
    cases hn : s.lookup? f n with
    | none =>
      simp only [Evaluation.round, EvalM.lookup, Store.lookup, hn, EvalM.ofExcept, bind_apply,
        get_apply, throw_apply] at h
      subst h
      exact ⟨.unbound hn, Nat.zero_le _⟩
    | some v =>
      simp only [Evaluation.round, EvalM.lookup, Store.lookup, hn, EvalM.ofExcept, bind_apply,
        get_apply, pure_apply, proceed] at h
      subst h
      exact ⟨.bound hn, Nat.zero_le _⟩
  | pair m first rest =>
    cases hk : first.keyword? with
    | none =>
      rw [round_of_application hk] at h
      exact exists_evaluates_of_application hin hgo hk h hr
    | some k =>
      cases hp : Form.parse k rest with
      | error err =>
        rw [round_of_malformed hk hp] at h
        subst h
        exact ⟨.malformed hk hp, Nat.zero_le _⟩
      | ok form =>
        have he : IsForm (.pair m first rest) form := isForm_pair_iff.2 ⟨k, hk, hp⟩
        rw [round_of_isForm he] at h
        exact exists_evaluates_of_isForm hin hgo he h hr
  | boolean _ | integer _ | character _ | string _ _ =>
    subst h
    exact ⟨.literal trivial, Nat.zero_le _⟩
  | nil | primitive _ _ | closure _ _ _ _ | absent =>
    subst h
    exact ⟨.notExpression trivial, Nat.zero_le _⟩

end Round

/-- **What the loop ends with, the rules derive**, and the derivation nests no deeper than
was allowed. -/
theorem exists_evaluates {rounds nesting : Nat} {r : Outcome Value}
    (h : evaluate rounds nesting e f s = r) (hr : Finished r) :
    ∃ d : Evaluates e f s r, d.nesting ≤ nesting := by
  induction rounds generalizing nesting e f s r with
  | zero =>
    subst h
    exact absurd rfl hr.2
  | succ rounds ih =>
    rw [evaluate_succ] at h
    refine exists_evaluates_of_round (fun {e f s r} hi hr => ?_) ih h hr
    cases nesting with
    | zero =>
      subst hi
      exact absurd rfl hr.1
    | succ nesting =>
      obtain ⟨d, hd⟩ := ih hi hr
      exact ⟨d, by omega⟩

/-! ### The loop and the rules -/

/-- `Ends nesting e f s r`: the loop comes to an end with the outcome `r`, which is the same
for every number of rounds that is great enough. -/
def Ends (nesting : Nat) (e : Value) (f : FrameId) (s : Store) (r : Outcome Value) : Prop :=
  (∀ t, r ≠ .error .unfinished t) ∧ ∃ n, ∀ rounds ≥ n, evaluate rounds nesting e f s = r

/-- The evaluation nests deeper than allowed. -/
def ExceedsNesting (nesting : Nat) (e : Value) (f : FrameId) (s : Store) : Prop :=
  ∃ rounds t, evaluate rounds nesting e f s = .error .depth t

theorem Evaluates.finished {r : Outcome Value} (d : Evaluates e f s r) : Finished r := by
  cases r with
  | ok v t => trivial
  | error err t =>
    have h := d.isIntrinsic
    constructor <;> (rintro rfl; cases h)

theorem Evaluates.ends {r : Outcome Value} (d : Evaluates e f s r) {nesting : Nat}
    (h : d.nesting ≤ nesting) : Ends nesting e f s r := by
  refine ⟨?_, eventually_atTop.1 (d.complete h)⟩
  rintro t rfl
  exact d.finished.2 rfl

/-- An end with fewer rounds than that is the error `unfinished`. -/
theorem Ends.eq_or_unfinished {nesting rounds : Nat} {r : Outcome Value}
    (h : Ends nesting e f s r) :
    evaluate rounds nesting e f s = r ∨
      ∃ t, evaluate rounds nesting e f s = .error .unfinished t := by
  obtain ⟨-, n, hn⟩ := h
  have hr := hn (max rounds n) (Nat.le_max_right _ _)
  rcases approximates_rounds (Nat.le_max_left rounds n) e f s with heq | ⟨err, t, rfl, ht⟩
  · exact .inl (heq.trans hr)
  · exact .inr ⟨t, ht⟩

/-- An evaluation that comes to its own end does not exceed its nesting on the way. -/
theorem Ends.not_exceedsNesting {nesting : Nat} {r : Outcome Value} (h : Ends nesting e f s r)
    (hr : Finished r) : ¬ ExceedsNesting nesting e f s := by
  rintro ⟨rounds, t, ht⟩
  rcases h.eq_or_unfinished with hk | ⟨u, hk⟩
  · rw [← hk, ht] at hr
    exact hr.1 rfl
  · rw [hk] at ht
    cases ht

/-- **The loop refines the rules.** Unless an evaluation nests deeper than allowed, it comes
to an end with an outcome, a value or an error together with a store, exactly when the
rules derive that outcome. -/
theorem ends_iff_evaluates {nesting : Nat} {e : Value} {f : FrameId} {s : Store}
    (h : ¬ ExceedsNesting nesting e f s) (r : Outcome Value) :
    Ends nesting e f s r ↔ Nonempty (Evaluates e f s r) := by
  constructor
  · rintro ⟨hu, n, hn⟩
    have hr : Finished r := by
      cases r with
      | ok v t => trivial
      | error err t =>
        refine ⟨?_, ?_⟩
        · rintro rfl
          exact h ⟨n, t, hn n (Nat.le_refl n)⟩
        · rintro rfl
          exact hu t rfl
    obtain ⟨d, -⟩ := exists_evaluates (hn n (Nat.le_refl n)) hr
    exact ⟨d⟩
  · rintro ⟨d⟩
    -- with room for the derivation the loop ends with `r`; with less it can only be too deep
    obtain ⟨hu, n, hn⟩ := d.ends (Nat.le_max_right nesting d.nesting)
    refine ⟨hu, n, fun rounds hrounds => ?_⟩
    rcases approximates_nesting (Nat.le_max_left nesting d.nesting) e f s with
      heq | ⟨err, t, rfl, ht⟩
    · exact heq.trans (hn rounds hrounds)
    · exact absurd ⟨rounds, t, ht⟩ h

/-- `(set! x #t)` with `x` not bound takes one level and ends with an error. -/
theorem ends_unbound_assignment :
    let e : Value :=
      .pair 0 (.symbol ⟨"set!"⟩) (.pair 1 (.symbol ⟨"x"⟩) (.pair 2 (.boolean true) .nil))
    ¬ ExceedsNesting 1 e Store.global .initial ∧
      Ends 1 e Store.global .initial (.error (.unbound (.symbol ⟨"x"⟩)) .initial) := by
  intro e
  let d : Evaluates e Store.global .initial (.error (.unbound (.symbol ⟨"x"⟩)) .initial) :=
    .assignUnbound (v := .boolean true) .assign (.literal trivial) rfl
  have h := (d.ends (Nat.le_refl 1)).not_exceedsNesting d.finished
  exact ⟨h, (ends_iff_evaluates h _).2 ⟨d⟩⟩

/-- **Tail calls do not nest.** An evaluation may go round as often as it likes: with as many
levels as its derivation nests, tail positions not counted, it ends with the derived outcome
and is at no time too deep. -/
theorem ends_of_nesting_le {e : Value} {f : FrameId} {s : Store} {r : Outcome Value}
    (d : Evaluates e f s r) {nesting : Nat} (h : d.nesting ≤ nesting) :
    Ends nesting e f s r ∧
      ∀ rounds err t, evaluate rounds nesting e f s = .error err t →
        err ≠ .depth ∧ err ≠ .tooDeep := by
  have hends := d.ends h
  refine ⟨hends, fun rounds err t herr => ?_⟩
  rcases hends.eq_or_unfinished with hr | ⟨u, hu⟩
  · rw [herr] at hr
    subst hr
    have hi := d.isIntrinsic
    constructor <;> (rintro rfl; cases hi)
  · rw [herr] at hu
    cases hu
    exact ⟨by decide, by decide⟩

/-- `((lambda () (if #t 7)))` takes one level: the body and the branch are in tail position. -/
theorem ends_call_of_conditional :
    let branch : Value :=
      .pair 3 (.symbol ⟨"if"⟩) (.pair 4 (.boolean true) (.pair 5 (.integer 7) .nil))
    let procedure : Value := .pair 1 (.symbol ⟨"lambda"⟩) (.pair 2 .nil (.pair 6 branch .nil))
    ∃ t, Ends 1 (.pair 0 procedure .nil) Store.global .initial (.ok (.integer 7) t) := by
  intro branch procedure
  have hp : (Object.nil : Value).IsSymbolList := ⟨rfl, by simp [Object.elements]⟩
  let d : Evaluates (.pair 0 procedure .nil) Store.global .initial (.ok (.integer 7) _) :=
    .application rfl (.lambda (.lambda hp rfl)) .nil
      (.closure rfl (.last (.consequent .conditional (.literal trivial) (.literal trivial))))
  exact ⟨_, (ends_of_nesting_le d (Nat.le_refl 1)).1⟩

end BigStep

end SmallScheme
