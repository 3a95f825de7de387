import SmallScheme.Evaluation.Basic
import SmallScheme.Proofs.Evaluation.Syntax

/-!
# Rules of evaluation

What an expression evaluates to, said without rounds, without tail calls and without a
limit: every subexpression has a derivation of its own, and the derivation of an
expression is built from those of its parts.

## The model

There are four judgements, one for each thing that can be evaluated: an expression in a
frame (`Evaluates`), the operands of an application (`Operands`), a procedure applied to
a list of arguments (`Applies`) and the body of a procedure (`Runs`). Each relates what
is evaluated, and the store before, to an outcome: an answer or an error, and in both
cases the store after. An error of a part is an error of the whole, with the store that
the part has left.

Derivations are data, so that something can be computed from them. `nesting` counts how
deep evaluations stand inside one another when those in tail position take the place of
the expression they belong to.
-/

namespace SmallScheme

/-- How a computation on the store ends: with an answer or with an error, and with a store. -/
abbrev Outcome (α : Type) := EStateM.Result Error Store α

/-- The object is not a pair. -/
def Object.IsAtom {ι : Type} (o : Object ι) : Prop := ∀ m first rest, o ≠ .pair m first rest

namespace BigStep

/-- The value evaluates to itself. -/
def IsLiteral : Value → Prop
  | .boolean _ | .integer _ | .character _ | .string _ _ => True
  | _ => False

/-- The value is no expression. -/
def IsNoExpression : Value → Prop
  | .nil | .primitive _ _ | .closure _ _ _ _ | .absent => True
  | _ => False

/-! ### The rules -/

mutual

/-- `Evaluates e f s r`: in the frame `f` and the store `s`, the expression `e` has the
outcome `r`. -/
inductive Evaluates : Value → FrameId → Store → Outcome Value → Type where
  /-- Booleans, integers, characters and strings evaluate to themselves. -/
  | literal {e : Value} {f : FrameId} {s : Store} (h : IsLiteral e) : Evaluates e f s (.ok e s)
  /-- A symbol evaluates to its nearest binding. -/
  | bound {n : Symbol} {f : FrameId} {s : Store} {v : Value} (h : s.lookup? f n = some v) :
      Evaluates (.symbol n) f s (.ok v s)
  /-- A symbol that no frame binds is an error. -/
  | unbound {n : Symbol} {f : FrameId} {s : Store} (h : s.lookup? f n = none) :
      Evaluates (.symbol n) f s (.error (.unbound (.symbol n)) s)
  /-- What is no expression is an error. -/
  | notExpression {e : Value} {f : FrameId} {s : Store} (h : IsNoExpression e) :
      Evaluates e f s (.error (.notExpression e) s)
  /-- A keyword followed by what makes no form is an error; nothing is evaluated. -/
  | malformed {m : Nat} {first rest : Value} {f : FrameId} {s : Store} {k : Keyword} {err : Error}
      (hk : first.keyword? = some k) (h : Form.parse k rest = .error err) :
      Evaluates (.pair m first rest) f s (.error err s)
  /-- `(quote d)` evaluates to `d` itself. -/
  | quote {e d : Value} {f : FrameId} {s : Store} (h : IsForm e (.quote d)) :
      Evaluates e f s (.ok d s)
  /-- `(lambda params . forms)` evaluates to a new procedure that closes over `f`. -/
  | lambda {e params forms : Value} {f : FrameId} {s : Store}
      (h : IsForm e (.lambda params forms)) :
      Evaluates e f s (.ok (.closure s.fresh params forms f) { s with fresh := s.fresh + 1 })
  /-- `(set! n x)` evaluates `x` and only then looks for the nearest binding of `n`, which
  is overwritten. -/
  | assign {e x v : Value} {n : Symbol} {f g : FrameId} {s t : Store}
      (h : IsForm e (.assign n x)) (d : Evaluates x f s (.ok v t)) (hg : t.find? f n = some g) :
      Evaluates e f s (.ok (.symbol .ok) (t.put g n v))
  /-- The assigned name is not bound once `x` has been evaluated. -/
  | assignUnbound {e x v : Value} {n : Symbol} {f : FrameId} {s t : Store}
      (h : IsForm e (.assign n x)) (d : Evaluates x f s (.ok v t)) (hg : t.find? f n = none) :
      Evaluates e f s (.error (.unbound (.symbol n)) t)
  /-- The value of an assignment is an error. -/
  | assignFails {e x : Value} {n : Symbol} {f : FrameId} {s t : Store} {err : Error}
      (h : IsForm e (.assign n x)) (d : Evaluates x f s (.error err t)) :
      Evaluates e f s (.error err t)
  /-- `(define n x)` evaluates `x` and then binds `n` in the frame `f` itself. -/
  | define {e x v : Value} {n : Symbol} {f : FrameId} {s t : Store}
      (h : IsForm e (.define n x)) (d : Evaluates x f s (.ok v t)) (hf : f ≠ Store.empty) :
      Evaluates e f s (.ok (.symbol .ok) (t.put f n v))
  /-- The empty frame takes no definition. -/
  | defineRefused {e x v : Value} {n : Symbol} {f : FrameId} {s t : Store}
      (h : IsForm e (.define n x)) (d : Evaluates x f s (.ok v t)) (hf : f = Store.empty) :
      Evaluates e f s (.error (.definitionInEmpty n) t)
  /-- The value of a definition is an error. -/
  | defineFails {e x : Value} {n : Symbol} {f : FrameId} {s t : Store} {err : Error}
      (h : IsForm e (.define n x)) (d : Evaluates x f s (.error err t)) :
      Evaluates e f s (.error err t)
  /-- `(define (n . params) . forms)` evaluates `(lambda params . forms)`, a new expression,
  and then binds `n` in the frame `f` itself. -/
  | defineProcedure {e params forms v : Value} {n : Symbol} {f : FrameId} {s t : Store}
      (h : IsForm e (.defineProcedure n params forms))
      (d : Evaluates (Evaluation.lambdaExpression s.fresh params forms) f
        { s with fresh := s.fresh + 2 } (.ok v t))
      (hf : f ≠ Store.empty) :
      Evaluates e f s (.ok (.symbol .ok) (t.put f n v))
  /-- The empty frame takes no procedure definition. -/
  | defineProcedureRefused {e params forms v : Value} {n : Symbol} {f : FrameId} {s t : Store}
      (h : IsForm e (.defineProcedure n params forms))
      (d : Evaluates (Evaluation.lambdaExpression s.fresh params forms) f
        { s with fresh := s.fresh + 2 } (.ok v t))
      (hf : f = Store.empty) :
      Evaluates e f s (.error (.definitionInEmpty n) t)
  /-- The value of a procedure definition is an error: its parameters are no list of symbols. -/
  | defineProcedureFails {e params forms : Value} {n : Symbol} {f : FrameId} {s t : Store}
      {err : Error} (h : IsForm e (.defineProcedure n params forms))
      (d : Evaluates (Evaluation.lambdaExpression s.fresh params forms) f
        { s with fresh := s.fresh + 2 } (.error err t)) :
      Evaluates e f s (.error err t)
  /-- `(if test x [y])` is `x` when the test yields `#t`. -/
  | consequent {e test x : Value} {y : Option Value} {f : FrameId} {s t : Store} {r : Outcome Value}
      (h : IsForm e (.conditional test x y)) (d : Evaluates test f s (.ok (.boolean true) t))
      (b : Evaluates x f t r) : Evaluates e f s r
  /-- `(if test x y)` is `y` when the test yields anything else. -/
  | alternative {e test x y v : Value} {f : FrameId} {s t : Store} {r : Outcome Value}
      (h : IsForm e (.conditional test x (some y))) (d : Evaluates test f s (.ok v t))
      (hv : v ≠ .boolean true) (b : Evaluates y f t r) : Evaluates e f s r
  /-- `(if test x)` is `#f` when the test yields anything else. -/
  | noAlternative {e test x v : Value} {f : FrameId} {s t : Store}
      (h : IsForm e (.conditional test x none)) (d : Evaluates test f s (.ok v t))
      (hv : v ≠ .boolean true) : Evaluates e f s (.ok (.boolean false) t)
  /-- The test is an error. -/
  | testFails {e test x : Value} {y : Option Value} {f : FrameId} {s t : Store} {err : Error}
      (h : IsForm e (.conditional test x y)) (d : Evaluates test f s (.error err t)) :
      Evaluates e f s (.error err t)
  /-- Any other pair evaluates its operator first, then its operands, and applies the one to
  the list of the others. -/
  | application {m : Nat} {first rest p : Value} {vs : List Value} {f : FrameId} {s t u : Store}
      {r : Outcome Value} (hk : first.keyword? = none) (d : Evaluates first f s (.ok p t))
      (ds : Operands rest f t (.ok vs u))
      (a : Applies p (Value.list u.fresh vs .nil) { u with fresh := u.fresh + vs.length } r) :
      Evaluates (.pair m first rest) f s r
  /-- The operator is an error. -/
  | operatorFails {m : Nat} {first rest : Value} {f : FrameId} {s t : Store} {err : Error}
      (hk : first.keyword? = none) (d : Evaluates first f s (.error err t)) :
      Evaluates (.pair m first rest) f s (.error err t)
  /-- The operands are an error. -/
  | operandsFail {m : Nat} {first rest p : Value} {f : FrameId} {s t u : Store} {err : Error}
      (hk : first.keyword? = none) (d : Evaluates first f s (.ok p t))
      (ds : Operands rest f t (.error err u)) :
      Evaluates (.pair m first rest) f s (.error err u)

/-- `Operands es f s r`: evaluated from left to right, the operands `es` have the outcome
`r`. -/
inductive Operands : Value → FrameId → Store → Outcome (List Value) → Type where
  /-- No operands are left. -/
  | nil {f : FrameId} {s : Store} : Operands .nil f s (.ok [] s)
  /-- The operands before the end of an improper list have been evaluated; it is an error. -/
  | improper {es : Value} {f : FrameId} {s : Store} (h : es.IsAtom) (hn : es ≠ .nil) :
      Operands es f s (.error .improperOperands s)
  /-- An operand is evaluated before those on its right. -/
  | cons {m : Nat} {e es v : Value} {vs : List Value} {f : FrameId} {s t u : Store}
      (d : Evaluates e f s (.ok v t)) (ds : Operands es f t (.ok vs u)) :
      Operands (.pair m e es) f s (.ok (v :: vs) u)
  /-- An operand is an error; those on its right are not evaluated. -/
  | fails {m : Nat} {e es : Value} {f : FrameId} {s t : Store} {err : Error}
      (d : Evaluates e f s (.error err t)) : Operands (.pair m e es) f s (.error err t)
  /-- The operands on the right are an error. -/
  | restFails {m : Nat} {e es v : Value} {f : FrameId} {s t u : Store} {err : Error}
      (d : Evaluates e f s (.ok v t)) (ds : Operands es f t (.error err u)) :
      Operands (.pair m e es) f s (.error err u)

/-- `Applies p args s r`: applied to the list of arguments `args`, the procedure `p` has the
outcome `r`. -/
inductive Applies : Value → Value → Store → Outcome Value → Type where
  /-- A primitive is applied to the list of arguments. -/
  | primitive {m : Nat} {p : Primitive} {args v : Value} {s : Store}
      (h : p.apply args s.fresh = .ok v) :
      Applies (.primitive m p) args s (.ok v { s with fresh := s.fresh + 1 })
  /-- A primitive refuses the arguments. -/
  | primitiveFails {m : Nat} {p : Primitive} {args : Value} {s : Store} {err : Error}
      (h : p.apply args s.fresh = .error err) :
      Applies (.primitive m p) args s (.error err { s with fresh := s.fresh + 1 })
  /-- The body of a procedure runs in a new frame inside the one it closes over, which binds
  the parameters to the arguments. -/
  | closure {m : Nat} {params forms args : Value} {f g : FrameId} {s t : Store} {r : Outcome Value}
      (h : s.extend params args f = .ok (g, t)) (d : Runs forms g t r) :
      Applies (.closure m params forms f) args s r
  /-- The parameters and the arguments do not match. -/
  | closureFails {m : Nat} {params forms args : Value} {f : FrameId} {s : Store} {err : Error}
      (h : s.extend params args f = .error err) :
      Applies (.closure m params forms f) args s (.error err s)
  /-- Nothing else can be applied. -/
  | notProcedure {p args : Value} {s : Store} (h : p.isProcedure = false) :
      Applies p args s (.error (.notProcedure p) s)

/-- `Runs forms f s r`: evaluated one after the other, the forms of a body have the outcome
`r`, that of the last of them. -/
inductive Runs : Value → FrameId → Store → Outcome Value → Type where
  /-- The last form. -/
  | last {m : Nat} {e : Value} {f : FrameId} {s : Store} {r : Outcome Value}
      (d : Evaluates e f s r) : Runs (.pair m e .nil) f s r
  /-- A form before the last is evaluated for its effect. -/
  | cons {m : Nat} {e es v : Value} {f : FrameId} {s t : Store} {r : Outcome Value}
      (hes : es ≠ .nil) (d : Evaluates e f s (.ok v t)) (ds : Runs es f t r) :
      Runs (.pair m e es) f s r
  /-- A form before the last is an error. -/
  | fails {m : Nat} {e es : Value} {f : FrameId} {s t : Store} {err : Error}
      (hes : es ≠ .nil) (d : Evaluates e f s (.error err t)) :
      Runs (.pair m e es) f s (.error err t)
  /-- What is no list of forms is an error. -/
  | noForms {forms : Value} {f : FrameId} {s : Store} (h : forms.IsAtom) :
      Runs forms f s (.error .lambdaShape s)

end

/-! ### Nesting -/

mutual

/-- How deep the evaluations of a derivation nest: a subexpression counts one level deeper
than the expression it belongs to, unless it is in tail position. -/
def Evaluates.nesting {e : Value} {f : FrameId} {s : Store} {r : Outcome Value} :
    Evaluates e f s r → Nat
  | .literal _ | .bound _ | .unbound _ | .notExpression _ | .malformed _ _ | .quote _
  | .lambda _ => 0
  | .assign _ d _ | .assignUnbound _ d _ | .assignFails _ d => d.nesting + 1
  | .define _ d _ | .defineRefused _ d _ | .defineFails _ d => d.nesting + 1
  | .defineProcedure _ d _ | .defineProcedureRefused _ d _ | .defineProcedureFails _ d =>
    d.nesting + 1
  -- the chosen branch counts at the level of the conditional
  | .consequent _ d b | .alternative _ d _ b => max (d.nesting + 1) b.nesting
  | .noAlternative _ d _ | .testFails _ d => d.nesting + 1
  | .application _ d ds a => max (d.nesting + 1) (max ds.nesting a.nesting)
  | .operatorFails _ d => d.nesting + 1
  | .operandsFail _ d ds => max (d.nesting + 1) ds.nesting

/-- The nesting of operands, counted at the level of the application. -/
def Operands.nesting {es : Value} {f : FrameId} {s : Store} {r : Outcome (List Value)} :
    Operands es f s r → Nat
  | .nil | .improper _ _ => 0
  | .cons d ds | .restFails d ds => max (d.nesting + 1) ds.nesting
  | .fails d => d.nesting + 1

/-- The nesting of a call, counted at the level of the application. -/
def Applies.nesting {p args : Value} {s : Store} {r : Outcome Value} : Applies p args s r → Nat
  | .primitive _ | .primitiveFails _ | .closureFails _ | .notProcedure _ => 0
  | .closure _ d => d.nesting

/-- The nesting of a body, counted at the level of the application. -/
def Runs.nesting {forms : Value} {f : FrameId} {s : Store} {r : Outcome Value} :
    Runs forms f s r → Nat
  -- the last form counts at the level of the application
  | .last d => d.nesting
  | .cons _ d ds => max (d.nesting + 1) ds.nesting
  | .fails _ d => d.nesting + 1
  | .noForms _ => 0

end

end BigStep

end SmallScheme
