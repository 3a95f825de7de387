import Mathlib.Tactic.SplitIfs
import SmallScheme.Evaluation.Form

/-!
# The syntax of special forms

`Form.parse` decides the shape of a special form by looking at its parts one after the
other. Here the shapes are written down as they stand in a text: `IsForm e form` says
that the expression `e` is spelled as one of the forms `(quote d)`, `(set! n e)`,
`(define n e)`, `(define (n . params) e ...)`, `(if t c)`, `(if t c a)` and
`(lambda params e ...)`. Main statement: parsing accepts exactly these spellings
(`isForm_pair_iff`).
-/

namespace SmallScheme

/-! ### Keywords -/

/-- The symbol that a keyword is written as. -/
def Keyword.symbol : Keyword → Symbol
  | quote => ⟨"quote"⟩
  | assign => ⟨"set!"⟩
  | define => ⟨"define"⟩
  | conditional => ⟨"if"⟩
  | lambda => ⟨"lambda"⟩

@[simp]
theorem Keyword.keyword?_symbol (k : Keyword) : k.symbol.keyword? = some k := by
  cases k <;> decide

/-- A keyword is known by its spelling. -/
theorem Symbol.keyword?_eq_some_iff {n : Symbol} {k : Keyword} :
    n.keyword? = some k ↔ n = k.symbol := by
  constructor
  · intro h
    obtain ⟨name⟩ := n
    unfold Symbol.keyword? at h
    split_ifs at h <;> obtain rfl := Option.some.inj h <;> simp_all [Keyword.symbol]
  · rintro rfl
    exact k.keyword?_symbol

theorem Object.keyword?_eq_some_iff {ι : Type} {o : Object ι} {k : Keyword} :
    o.keyword? = some k ↔ o = .symbol k.symbol := by
  cases o with
  | symbol n => simp [Object.keyword?, Symbol.keyword?_eq_some_iff]
  | _ => simp [Object.keyword?]

/-! ### Parameters -/

/-- The object is a proper list of symbols. -/
def Object.IsSymbolList {ι : Type} (o : Object ι) : Prop :=
  o.isList = true ∧ ∀ p ∈ o.elements, ∃ n, p = .symbol n

/-- The check of parameters accepts exactly the proper lists of symbols. -/
theorem checkParameters_eq_ok_iff {params : Value} :
    checkParameters params = .ok () ↔ params.IsSymbolList := by
  fun_induction checkParameters params with
  | case1 m n params ih =>
    simp_all [Object.IsSymbolList, Object.isList, Object.ending, Object.elements]
  | case2 m p params hp =>
    simp only [reduceCtorEq, false_iff]
    rintro ⟨-, h⟩
    obtain ⟨n, rfl⟩ := h p (by simp [Object.elements])
    exact hp n rfl
  | case3 => simp [Object.IsSymbolList, Object.isList, Object.ending, Object.elements]
  | case4 params hpair hnil =>
    simp only [reduceCtorEq, false_iff]
    rintro ⟨h, -⟩
    cases params <;> simp_all [Object.isList, Object.ending]

/-! ### Forms -/

/-- `IsForm e form`: the expression `e` is a spelling of the special form `form`. -/
inductive IsForm : Value → Form → Prop where
  /-- `(quote d)` -/
  | quote {a b : Nat} {d : Value} :
      IsForm (.pair a (.symbol ⟨"quote"⟩) (.pair b d .nil)) (.quote d)
  /-- `(set! n e)` -/
  | assign {a b c : Nat} {n : Symbol} {e : Value} :
      IsForm (.pair a (.symbol ⟨"set!"⟩) (.pair b (.symbol n) (.pair c e .nil))) (.assign n e)
  /-- `(define n e)` -/
  | define {a b c : Nat} {n : Symbol} {e : Value} :
      IsForm (.pair a (.symbol ⟨"define"⟩) (.pair b (.symbol n) (.pair c e .nil))) (.define n e)
  /-- `(define (n . params) e . es)`, with a proper list of at least one form for a body.
  Anything may stand in the place of the parameters. -/
  | defineProcedure {a b c d : Nat} {n : Symbol} {params e es : Value} (hb : es.isList = true) :
      IsForm (.pair a (.symbol ⟨"define"⟩) (.pair b (.pair c (.symbol n) params) (.pair d e es)))
        (.defineProcedure n params (.pair d e es))
  /-- `(if test consequent)` -/
  | conditional {a b c : Nat} {test consequent : Value} :
      IsForm (.pair a (.symbol ⟨"if"⟩) (.pair b test (.pair c consequent .nil)))
        (.conditional test consequent none)
  /-- `(if test consequent alternative)` -/
  | alternative {a b c d : Nat} {test consequent alternative : Value} :
      IsForm
        (.pair a (.symbol ⟨"if"⟩) (.pair b test (.pair c consequent (.pair d alternative .nil))))
        (.conditional test consequent (some alternative))
  /-- `(lambda params e . es)`, with the same condition on the body, and with a proper list of
  symbols for parameters. -/
  | lambda {a b c : Nat} {params e es : Value}
      (hp : params.IsSymbolList) (hb : es.isList = true) :
      IsForm (.pair a (.symbol ⟨"lambda"⟩) (.pair b params (.pair c e es)))
        (.lambda params (.pair c e es))

/-- A special form is a pair headed by its keyword, and what follows parses as the form. -/
theorem IsForm.parse {e : Value} {form : Form} (h : IsForm e form) :
    ∃ m k rest, e = .pair m (.symbol k.symbol) rest ∧ Form.parse k rest = .ok form := by
  cases h with
  | quote => exact ⟨_, .quote, _, rfl, rfl⟩
  | assign => exact ⟨_, .assign, _, rfl, rfl⟩
  | define => exact ⟨_, .define, _, rfl, rfl⟩
  | defineProcedure hb =>
    refine ⟨_, .define, _, rfl, ?_⟩
    simp only [Form.parse, Form.parseDefine, Form.parseTarget, hb, if_true]
  | conditional => exact ⟨_, .conditional, _, rfl, rfl⟩
  | alternative => exact ⟨_, .conditional, _, rfl, rfl⟩
  | lambda hp hb =>
    refine ⟨_, .lambda, _, rfl, ?_⟩
    simp only [Form.parse, Form.parseLambda, hb, if_true, checkParameters_eq_ok_iff.2 hp]
    rfl

/-- What parses as a special form after its keyword is a spelling of the form. -/
theorem isForm_of_parse {m : Nat} {k : Keyword} {rest : Value} {form : Form}
    (h : Form.parse k rest = .ok form) : IsForm (.pair m (.symbol k.symbol) rest) form := by
  cases k with
  | quote =>
    simp only [Form.parse, Form.parseQuote] at h
    split at h <;> cases h
    exact .quote
  | assign =>
    simp only [Form.parse, Form.parseAssign] at h
    split at h <;> cases h
    exact .assign
  | define =>
    simp only [Form.parse, Form.parseDefine] at h
    split at h
    · next b target c e es =>
      split_ifs at h with hes
      unfold Form.parseTarget at h
      split at h
      · next hbody => cases h; cases hbody; exact .define
      · cases h
      · cases h; exact .defineProcedure hes
      · cases h
    · cases h
  | conditional =>
    simp only [Form.parse, Form.parseConditional] at h
    split at h <;> cases h
    · exact .conditional
    · exact .alternative
  | lambda =>
    simp only [Form.parse, Form.parseLambda] at h
    split at h
    · next b params c e es =>
      split_ifs at h with hes
      cases hp : checkParameters params with
      | error err => rw [hp] at h; cases h
      | ok _ => rw [hp] at h; cases h; exact .lambda (checkParameters_eq_ok_iff.1 hp) hes
    · cases h

/-- **Parsing accepts exactly the spellings of special forms.** -/
theorem isForm_pair_iff {m : Nat} {first rest : Value} {form : Form} :
    IsForm (.pair m first rest) form ↔
      ∃ k, first.keyword? = some k ∧ Form.parse k rest = .ok form := by
  constructor
  · intro h
    obtain ⟨_, k, _, he, hk⟩ := h.parse
    cases he
    exact ⟨k, Object.keyword?_eq_some_iff.2 rfl, hk⟩
  · rintro ⟨k, hk, h⟩
    obtain rfl := Object.keyword?_eq_some_iff.1 hk
    exact isForm_of_parse h

/-- A special form is not an application. -/
theorem IsForm.keyword?_ne_none {m : Nat} {first rest : Value} {form : Form}
    (h : IsForm (.pair m first rest) form) : first.keyword? ≠ none := by
  obtain ⟨k, hk, -⟩ := isForm_pair_iff.1 h
  simp [hk]

end SmallScheme
