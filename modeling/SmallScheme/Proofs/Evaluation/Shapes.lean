import SmallScheme.Proofs.Evaluation.Calls
import SmallScheme.Proofs.Evaluation.Code

/-!
# The shape of a special form is checked first

Each keyword asks for a shape of what follows it, and this is said here as a condition on
lists (`Keyword.WellFormed`). What has the shape is a spelling of a form
(`Keyword.wellFormed_iff`), whatever stands in the places for expressions.

Main statement: a keyword followed by anything else is an error before any part has been
evaluated and with the store as it was; and after a keyword followed by what it asks for, an
error about a shape comes from evaluating one of the parts (`shape_is_checked_first`).

Nearly all of the shape is checked in the first round (`Entry.RefusedAtOnce`). Only the
parameters of a procedure definition are not: a new `lambda` expression is made with them,
and it is the evaluation of this expression, one level deeper, that is refused at once
(`Entry.RefusedAsProcedure`).
-/

namespace SmallScheme

open Object Evaluation BigStep Sequencing

/-! ### Well-formed tails -/

section Lists

variable {ι : Type} {o : Object ι} {n : Nat}

theorem Object.eq_nil_of_isList (h : o.isList = true) (hn : o.pairCount = 0) : o = .nil := by
  cases o with
  | nil => rfl
  | pair m x rest => cases hn
  | _ => cases h

theorem Object.exists_pair_of_isList (h : o.isList = true) (hn : o.pairCount = n + 1) :
    ∃ m x rest, o = .pair m x rest ∧ rest.isList = true ∧ rest.pairCount = n := by
  cases o with
  | pair m x rest => exact ⟨m, x, rest, rfl, h, Nat.succ.inj hn⟩
  | _ => cases hn

theorem Object.exists_two_of_isList (h : o.isList = true) (hn : o.pairCount = n + 2) :
    ∃ a x b y rest, o = .pair a x (.pair b y rest) ∧ rest.isList = true ∧ rest.pairCount = n := by
  obtain ⟨a, x, tail, rfl, htail, hcount⟩ := exists_pair_of_isList h hn
  obtain ⟨b, y, rest, rfl, hrest, hcount⟩ := exists_pair_of_isList htail hcount
  exact ⟨a, x, b, y, rest, rfl, hrest, hcount⟩

end Lists

/-- What follows the keyword has the shape that the keyword asks for. -/
def Keyword.WellFormed (k : Keyword) (tail : Value) : Prop :=
  tail.isList = true ∧
    match k with
    | quote => tail.pairCount = 1
    | assign => tail.pairCount = 2 ∧ ∃ n, tail.elements.head? = some (.symbol n)
    | conditional => tail.pairCount = 2 ∨ tail.pairCount = 3
    | lambda =>
      2 ≤ tail.pairCount ∧ ∃ params, tail.elements.head? = some params ∧ params.IsSymbolList
    | define =>
      tail.pairCount = 2 ∧ (∃ n, tail.elements.head? = some (.symbol n)) ∨
      2 ≤ tail.pairCount ∧ ∃ m n params,
        tail.elements.head? = some (.pair m (.symbol n) params) ∧ params.IsSymbolList

/-- Where the form is a procedure definition, its parameters are a list of symbols. -/
def Form.HasParameters : Form → Prop
  | .defineProcedure _ params _ => params.IsSymbolList
  | _ => True

theorem IsForm.exists_wellFormed {e : Value} {form : Form} (h : IsForm e form)
    (hp : form.HasParameters) : ∃ (m : Nat) (k : Keyword) (tail : Value),
      e = .pair m (.symbol k.symbol) tail ∧ k.WellFormed tail := by
  cases h with
  | quote => exact ⟨_, .quote, _, rfl, rfl, rfl⟩
  | assign => exact ⟨_, .assign, _, rfl, rfl, rfl, _, rfl⟩
  | define => exact ⟨_, .define, _, rfl, rfl, .inl ⟨rfl, _, rfl⟩⟩
  | defineProcedure hb =>
    exact ⟨_, .define, _, rfl, hb, .inr ⟨Nat.le_add_left 2 _, _, _, _, rfl, hp⟩⟩
  | conditional => exact ⟨_, .conditional, _, rfl, rfl, .inl rfl⟩
  | alternative => exact ⟨_, .conditional, _, rfl, rfl, .inr rfl⟩
  | lambda hparams hb => exact ⟨_, .lambda, _, rfl, hb, Nat.le_add_left 2 _, _, rfl, hparams⟩

/-- **Well formed is what spells a form**, if this has parameters where it needs them. -/
theorem Keyword.wellFormed_iff {k : Keyword} {m : Nat} {tail : Value} :
    k.WellFormed tail ↔
      ∃ form, IsForm (.pair m (.symbol k.symbol) tail) form ∧ form.HasParameters := by
  constructor
  · rintro ⟨hlist, h⟩
    cases k with
    | quote =>
      obtain ⟨_, d, rest, rfl, hrest, hcount⟩ := exists_pair_of_isList hlist h
      obtain rfl := eq_nil_of_isList hrest hcount
      exact ⟨_, .quote, trivial⟩
    | assign =>
      obtain ⟨htwo, n, hn⟩ := h
      obtain ⟨_, _, _, e, rest, rfl, hrest, hcount⟩ := exists_two_of_isList hlist htwo
      obtain rfl := eq_nil_of_isList hrest hcount
      obtain rfl := Option.some.inj hn
      exact ⟨_, .assign, trivial⟩
    | define =>
      rcases h with ⟨htwo, n, hn⟩ | ⟨htwo, _, n, params, hn, hp⟩
      · obtain ⟨_, _, _, e, rest, rfl, hrest, hcount⟩ := exists_two_of_isList hlist htwo
        obtain rfl := eq_nil_of_isList hrest hcount
        obtain rfl := Option.some.inj hn
        exact ⟨_, .define, trivial⟩
      · obtain ⟨_, hmore⟩ := Nat.exists_eq_add_of_le' htwo
        obtain ⟨_, _, _, e, es, rfl, hes, -⟩ := exists_two_of_isList hlist hmore
        obtain rfl := Option.some.inj hn
        exact ⟨_, .defineProcedure hes, hp⟩
    | conditional =>
      rcases h with htwo | hthree
      · obtain ⟨_, test, _, x, rest, rfl, hrest, hcount⟩ := exists_two_of_isList hlist htwo
        obtain rfl := eq_nil_of_isList hrest hcount
        exact ⟨_, .conditional, trivial⟩
      · obtain ⟨_, test, _, x, rest, rfl, hrest, hone⟩ := exists_two_of_isList hlist hthree
        obtain ⟨_, y, rest, rfl, hrest, hcount⟩ := exists_pair_of_isList hrest hone
        obtain rfl := eq_nil_of_isList hrest hcount
        exact ⟨_, .alternative, trivial⟩
    | lambda =>
      obtain ⟨htwo, params, hn, hp⟩ := h
      obtain ⟨_, hmore⟩ := Nat.exists_eq_add_of_le' htwo
      obtain ⟨_, _, _, e, es, rfl, hes, -⟩ := exists_two_of_isList hlist hmore
      obtain rfl := Option.some.inj hn
      exact ⟨_, .lambda hp hes, trivial⟩
  · rintro ⟨form, h, hp⟩
    obtain ⟨m', k', tail', he, hk'⟩ := h.exists_wellFormed hp
    simp only [Object.pair.injEq, Object.symbol.injEq] at he
    obtain ⟨rfl, hsymbol, rfl⟩ := he
    have hk : k.symbol.keyword? = k'.symbol.keyword? := congrArg _ hsymbol
    rw [keyword?_symbol, keyword?_symbol, Option.some.injEq] at hk
    exact hk ▸ hk'

/-! ### Malformed expressions -/

/-- The evaluation ends in its first round with the error. The store is as it was, and no
subexpression has been evaluated: a round needs no evaluator for them, and the evaluation comes
to no other. -/
structure Entry.RefusedAtOnce (a : Entry) (err : Error) : Prop where
  evaluate (rounds nesting : Nat) :
    evaluate (rounds + 1) nesting a.expression a.frame a.store = .error err a.store
  round (ev : Evaluator) : Evaluation.round ev a.expression a.frame a.store = .error err a.store
  not_inner (b : Entry) : ¬ Inner a b

/-- The `lambda` expression that stands for the value of a procedure definition. It is new, and
all that making it does to the store is that two marks are used up. -/
def Entry.procedure (a : Entry) (params forms : Value) : Entry :=
  ⟨lambdaExpression a.store.fresh params forms, a.frame,
    { a.store with fresh := a.store.fresh + 2 }⟩

/-- The expression defines a procedure by parameters that are no list of symbols. Its evaluation
comes to that of a `lambda` expression and to nothing else, and this is refused at once. The
error is that of the whole, unless no evaluation may nest in this one. -/
structure Entry.RefusedAsProcedure (a : Entry) (n : Symbol) (params forms : Value) (err : Error) :
    Prop where
  isForm : IsForm a.expression (.defineProcedure n params forms)
  not_isSymbolList : ¬ params.IsSymbolList
  inner_iff (b : Entry) : Inner a b ↔ b = a.procedure params forms
  refused : (a.procedure params forms).RefusedAtOnce err
  evaluate (rounds nesting : Nat) :
    evaluate (rounds + 2) (nesting + 1) a.expression a.frame a.store =
      .error err (a.procedure params forms).store
  evaluate_zero (rounds : Nat) :
    SmallScheme.evaluate (rounds + 1) 0 a.expression a.frame a.store =
      .error .depth (a.procedure params forms).store

section Malformed

variable {m : Nat} {k : Keyword} {e first tail params forms : Value} {n : Symbol} {f : FrameId}
  {s : Store} {err : Error}

/-- What does not parse is refused at once. -/
theorem refusedAtOnce_of_malformed (hk : first.keyword? = some k)
    (h : Form.parse k tail = .error err) :
    (⟨.pair m first tail, f, s⟩ : Entry).RefusedAtOnce err where
  evaluate rounds nesting := by
    rw [evaluate_succ, round_of_malformed hk h, bind_apply, throw_apply]
  round ev := by rw [round_of_malformed hk h, throw_apply]
  not_inner b hinner := by
    have hform : ∀ form, ¬ IsForm (.pair m first tail) form := fun form hform => by
      obtain ⟨k', hk', hparse⟩ := isForm_pair_iff.1 hform
      obtain rfl := Option.some.inj (hk.symm.trans hk')
      cases h.symm.trans hparse
    have hnone : first.keyword? ≠ none := by simp [hk]
    cases hinner with
    | assigned h | value h | procedure h | test h | consequent h | alternative h => exact hform _ h
    | operator hk' | operand hk' => exact hnone hk'
    | form hcall =>
      cases hcall with
      | mk hk' => exact hnone hk'

/-- The parts of the parameters are parts of what follows the keyword. -/
theorem IsForm.mem_parts_of_parameters {d : Value}
    (h : IsForm (.pair m first tail) (.defineProcedure n params forms)) (hd : d ∈ params.parts) :
    d ∈ tail.parts := by
  cases h with
  | defineProcedure => exact mem_parts_first (mem_parts_rest hd)

/-- A form comes to no call of its own. -/
theorem not_calls_of_isForm {form : Form} {p args : Value} {t : Store} (h : IsForm e form) :
    ¬ Calls ⟨e, f, s⟩ p args t := by
  intro hcall
  cases hcall with
  | mk hk => exact h.keyword?_ne_none hk

/-- A procedure definition comes to its `lambda` expression and to nothing else. -/
theorem inner_procedure_iff (h : IsForm e (.defineProcedure n params forms)) (b : Entry) :
    Inner ⟨e, f, s⟩ b ↔ b = (⟨e, f, s⟩ : Entry).procedure params forms := by
  constructor
  · intro hinner
    cases hinner with
    | procedure h' =>
      cases h.unique h'
      rfl
    | assigned h' | value h' | test h' | consequent h' | alternative h' => cases h.unique h'
    | operator hk | operand hk => exact absurd hk h.keyword?_ne_none
    | form hcall => exact absurd hcall (not_calls_of_isForm h)
  · rintro rfl
    exact .procedure h

/-- A procedure is not defined by parameters that are no list of symbols. -/
theorem exists_refusedAsProcedure (h : IsForm e (.defineProcedure n params forms))
    (hp : ¬ params.IsSymbolList) (f : FrameId) (s : Store) :
    ∃ err, checkParameters params = .error err ∧
      (⟨e, f, s⟩ : Entry).RefusedAsProcedure n params forms err := by
  cases hcheck : checkParameters params with
  | ok _ => exact absurd (checkParameters_eq_ok_iff.1 hcheck) hp
  | error err =>
    have hparse : Form.parse .lambda (.pair (s.fresh + 1) params forms) = .error err := by
      cases h with
      | defineProcedure hb =>
        simp only [Form.parse, Form.parseLambda, hb, if_true, hcheck]
        rfl
    have hrefused : ((⟨e, f, s⟩ : Entry).procedure params forms).RefusedAtOnce err :=
      refusedAtOnce_of_malformed Keyword.lambda.keyword?_symbol hparse
    refine ⟨err, rfl, h, hp, inner_procedure_iff h, hrefused, fun rounds nesting => ?_,
      fun rounds => ?_⟩
    · have hvalue := hrefused.evaluate rounds nesting
      simp only [Entry.procedure] at hvalue ⊢
      simp only [evaluate_succ (rounds + 1), Evaluation.inner, round_of_isForm h, special,
        EvalM.marks, bind_apply, modifyGet_apply, hvalue]
    · simp only [Entry.procedure, evaluate_succ, Evaluation.inner, round_of_isForm h, special,
        EvalM.marks, bind_apply, modifyGet_apply, throw_apply]

/-- **What is not well formed is refused**, at once or as a procedure, with an error that says so
and shows nothing but a part of it. -/
theorem exists_refused (h : ¬ k.WellFormed tail) (m : Nat) (f : FrameId) (s : Store) :
    ∃ err, err.IsShapeFaultOf tail ∧
      ((⟨.pair m (.symbol k.symbol) tail, f, s⟩ : Entry).RefusedAtOnce err ∨
        ∃ n params forms,
          (⟨.pair m (.symbol k.symbol) tail, f, s⟩ : Entry).RefusedAsProcedure n params forms
            err) := by
  cases hparse : Form.parse k tail with
  | error err =>
    exact ⟨err, Form.isShapeFaultOf_of_parse hparse,
      .inl (refusedAtOnce_of_malformed k.keyword?_symbol hparse)⟩
  | ok form =>
    have hform : IsForm (.pair m (.symbol k.symbol) tail) form := isForm_of_parse hparse
    have hbad : ¬ form.HasParameters := fun hp => h (Keyword.wellFormed_iff.2 ⟨form, hform, hp⟩)
    cases form with
    | defineProcedure n params forms =>
      obtain ⟨err, hcheck, hrefused⟩ := exists_refusedAsProcedure hform hbad f s
      refine ⟨err, ?_, .inr ⟨n, params, forms, hrefused⟩⟩
      obtain ⟨hkind, hshown⟩ := isShapeFaultOf_of_checkParameters hcheck
      exact ⟨hkind, fun d hd => hform.mem_parts_of_parameters (hshown d hd)⟩
    | _ => exact absurd trivial hbad

end Malformed

/-! ### Well-formed expressions -/

section WellFormed

variable {m : Nat} {first tail x : Value} {form : Form} {f : FrameId} {s t : Store} {err : Error}

/-- The expressions that a form may evaluate in the frame it is itself evaluated in. -/
def Form.expressions : Form → List Value
  | .assign _ e | .define _ e => [e]
  | .conditional test x y => test :: x :: y.toList
  | .quote _ | .defineProcedure _ _ _ | .lambda _ _ => []

theorem IsForm.mem_elements (h : IsForm (.pair m first tail) form) (hx : x ∈ form.expressions) :
    x ∈ tail.elements := by
  cases h with
  | quote | defineProcedure | lambda => cases hx
  | assign | define => exact List.mem_cons_of_mem _ hx
  | conditional | alternative => exact hx

/-- **An error about a shape is not an error of the form itself** if the form is well formed: it
comes from one of its expressions. -/
theorem BigStep.Evaluates.exists_inner_of_kind_shape (hform : IsForm (.pair m first tail) form)
    (hp : form.HasParameters) (d : Evaluates (.pair m first tail) f s (.error err t))
    (hkind : err.kind = .shape) :
    ∃ x ∈ tail.elements, ∃ u, Inner ⟨.pair m first tail, f, s⟩ ⟨x, f, u⟩ ∧
      Nonempty (Evaluates x f u (.error err t)) := by
  obtain ⟨k, hk, hparse⟩ := isForm_pair_iff.1 hform
  cases d with
  | notExpression h => exact h.elim
  | malformed hk' herr =>
    obtain rfl := Option.some.inj (hk.symm.trans hk')
    cases hparse.symm.trans herr
  | assignUnbound | defineRefused | defineProcedureRefused => cases hkind
  | assignFails h d => exact ⟨_, h.mem_elements (.head _), _, .assigned h, ⟨d⟩⟩
  | defineFails h d => exact ⟨_, h.mem_elements (.head _), _, .value h, ⟨d⟩⟩
  | defineProcedureFails h d =>
    -- with a list of symbols for parameters there is a procedure
    cases hform.unique h
    cases d.outcome_unique (.lambda (h.lambdaExpression hp _))
  | testFails h d => exact ⟨_, h.mem_elements (.head _), _, .test h, ⟨d⟩⟩
  | consequent h d b => exact ⟨_, h.mem_elements (.tail _ (.head _)), _, .consequent h d, ⟨b⟩⟩
  | alternative h d hv b =>
    exact ⟨_, h.mem_elements (.tail _ (.tail _ (.head _))), _, .alternative h d hv, ⟨b⟩⟩
  | application hk' | operatorFails hk' | operandsFail hk' => cases hk.symm.trans hk'

end WellFormed

/-- **The shape of a special form is checked before anything happens.** For any object that
follows a keyword, any frame and any store:

* If it is not what the keyword asks for, the evaluation is refused with an error about a shape:
  at once, or as the definition of a procedure by parameters that are no list of symbols. In both
  cases nothing is bound, assigned or added to the store, and no expression that stands in the
  object has been evaluated. The error is shown as one about a shape, unless some part of the
  object that its message shows nests too deeply for that, or holds what has no external form.
* If it is what the keyword asks for and the evaluation ends in an error about a shape, then an
  expression that stands in it was evaluated on the way, and ended in this error. -/
theorem shape_is_checked_first (k : Keyword) (m : Nat) (tail : Value) (f : FrameId) (s : Store) :
    (¬ k.WellFormed tail → ∃ err,
      ((⟨.pair m (.symbol k.symbol) tail, f, s⟩ : Entry).RefusedAtOnce err ∨
        ∃ n params forms,
          (⟨.pair m (.symbol k.symbol) tail, f, s⟩ : Entry).RefusedAsProcedure n params forms
            err) ∧
      ∀ limit, (∃ text, err.report limit = ⟨.shape, some text⟩) ∨
        ∃ d ∈ tail.parts, ∃ w, d.describe limit = .error w ∧ err.report limit = w.report ∧
          (w = .tooDeep ∨ .absent ∈ d.parts)) ∧
    (k.WellFormed tail → ∀ rounds nesting err t,
      evaluate rounds nesting (.pair m (.symbol k.symbol) tail) f s = .error err t →
        err.kind = .shape →
          ∃ x ∈ tail.elements, ∃ u,
            Inner ⟨.pair m (.symbol k.symbol) tail, f, s⟩ ⟨x, f, u⟩ ∧
              ∃ rounds nesting, evaluate rounds nesting x f u = .error err t) := by
  refine ⟨fun hbad => ?malformed, fun hgood rounds nesting err t h hkind => ?wellFormed⟩
  case malformed =>
    obtain ⟨err, ⟨hkind, hshown⟩, hrefused⟩ := exists_refused hbad m f s
    refine ⟨err, hrefused, fun limit => ?_⟩
    rcases Error.report_of_kind_shape hkind limit with hreport | ⟨d, w, hd, hw, hreport⟩
    · exact .inl hreport
    · refine .inr ⟨d, hshown d hd, w, hw, hreport, ?_⟩
      cases w with
      | tooDeep => exact .inl rfl
      | noExternalForm => exact .inr (absent_mem_parts_of_describe hw)
  case wellFormed =>
    obtain ⟨form, hform, hp⟩ := (Keyword.wellFormed_iff (m := m)).1 hgood
    have hfinished : Finished (.error err t : Outcome Value) := by
      constructor <;> (rintro rfl; cases hkind)
    obtain ⟨d, -⟩ := exists_evaluates h hfinished
    obtain ⟨x, hx, u, hinner, ⟨d'⟩⟩ := d.exists_inner_of_kind_shape hform hp hkind
    obtain ⟨n, hn⟩ := (d'.complete (Nat.le_refl _)).exists
    exact ⟨x, hx, u, hinner, n, _, hn⟩

/-- `(set! 1 x)` is refused at once, `(define (f 1) 2)` by the `lambda` expression that it makes,
and the error of `(if (quote) 1)` is that of its test. -/
theorem shape_is_checked_first_and_in_parts :
    (∃ err, ∀ rounds nesting,
      evaluate (rounds + 1) nesting
        (.pair 0 (.symbol ⟨"set!"⟩) (.pair 1 (.integer 1) (.pair 2 (.symbol ⟨"x"⟩) .nil)))
        Store.global .initial = .error err .initial) ∧
    (∃ err, ∀ rounds nesting,
      evaluate (rounds + 2) (nesting + 1)
        (.pair 0 (.symbol ⟨"define"⟩)
          (.pair 1 (.pair 2 (.symbol ⟨"f"⟩) (.pair 3 (.integer 1) .nil))
            (.pair 4 (.integer 2) .nil)))
        Store.global .initial =
          .error err { Store.initial with fresh := Store.initial.fresh + 2 }) ∧
    ∃ u, Inner
        ⟨.pair 0 (.symbol ⟨"if"⟩)
          (.pair 1 (.pair 2 (.symbol ⟨"quote"⟩) .nil) (.pair 3 (.integer 1) .nil)),
          Store.global, .initial⟩
        ⟨.pair 2 (.symbol ⟨"quote"⟩) .nil, Store.global, u⟩ ∧
      ∃ rounds nesting, evaluate rounds nesting (.pair 2 (.symbol ⟨"quote"⟩) .nil) Store.global u =
        .error .quoteShape .initial := by
  have hbad : ¬ Keyword.WellFormed .assign (.pair 1 (.integer 1) (.pair 2 (.symbol ⟨"x"⟩) .nil)) :=
    fun ⟨_, _, _, hn⟩ => nomatch hn
  have hparameters : ¬ Keyword.WellFormed .define
      (.pair 1 (.pair 2 (.symbol ⟨"f"⟩) (.pair 3 (.integer 1) .nil))
        (.pair 4 (.integer 2) .nil)) := by
    rintro ⟨-, ⟨-, n, hn⟩ | ⟨-, _, n, params, hn, -, hall⟩⟩
    · cases hn
    · cases hn
      obtain ⟨n, hone⟩ := hall _ (.head _)
      cases hone
  have hgood : Keyword.WellFormed .conditional
      (.pair 1 (.pair 2 (.symbol ⟨"quote"⟩) .nil) (.pair 3 (.integer 1) .nil)) :=
    ⟨rfl, .inl rfl⟩
  obtain ⟨err, hrefused, -⟩ := (shape_is_checked_first .assign 0 _ Store.global .initial).1 hbad
  obtain ⟨err', hrefused', -⟩ :=
    (shape_is_checked_first .define 0 _ Store.global .initial).1 hparameters
  obtain ⟨x, hx, u, hinner, rounds, nesting, h⟩ :=
    (shape_is_checked_first .conditional 0 _ Store.global .initial).2 hgood 2 1 .quoteShape .initial
      rfl rfl
  refine ⟨⟨err, ?_⟩, ⟨err', ?_⟩, ?_⟩
  · rcases hrefused with hrefused | ⟨n, params, forms, hrefused⟩
    · exact hrefused.evaluate
    · obtain ⟨k, hk, hparse⟩ := isForm_pair_iff.1 hrefused.isForm
      obtain rfl := Option.some.inj (Keyword.assign.keyword?_symbol.symm.trans hk)
      cases hparse
  · rcases hrefused' with hrefused | ⟨n, params, forms, hrefused⟩
    · exact absurd (.procedure (.defineProcedure rfl)) (hrefused.not_inner _)
    · exact hrefused.evaluate
  · rcases List.mem_cons.1 hx with rfl | hx
    · exact ⟨u, hinner, rounds, nesting, h⟩
    · -- the other part has a value
      obtain rfl := List.mem_singleton.1 hx
      cases rounds with
      | zero => cases h
      | succ rounds =>
        rw [evaluate_succ] at h
        cases h

end SmallScheme
