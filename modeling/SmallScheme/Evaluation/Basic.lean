import SmallScheme.Evaluation.Form
import SmallScheme.Primitive.Apply
import SmallScheme.Store

/-!
# Evaluation

Evaluates an expression in a frame.

## The model

Evaluation goes in *rounds*. A round either finishes with a value or replaces the
expression and the frame by those of the tail position: the chosen branch of a
conditional, or the last form of the body of a procedure. So a loop made of tail calls
takes rounds but does not nest. All other subexpressions, namely operators, operands,
tests, the values of definitions and assignments, and the forms of a body before the
last, are evaluated one level deeper.

`round` performs one round and is given the evaluator for the subexpressions;
`evaluate` goes round until there is a value. It is bounded in two ways that are told
apart: by `nesting`, the number of levels below the present one, and by `rounds`,
which is there to make it total.

The store is kept when an evaluation fails: what was defined before stays defined.
-/

namespace SmallScheme

/-- A computation on the store that may fail. -/
abbrev EvalM := EStateM Error Store

/-- What a round leaves to do. -/
inductive Next where
  /-- Nothing: the value is found. -/
  | done (v : Value)
  /-- The expression in tail position, with its frame. -/
  | tail (e : Value) (f : FrameId)

/-- Bounds on reading, evaluating and writing. -/
structure Limits where
  /-- The levels that data and evaluations may nest. -/
  nesting : Nat
  /-- The rounds that an evaluation may take. -/
  rounds : Nat

/-- The bounds that programs run under. -/
def Limits.standard : Limits := ⟨10000, 0x4000000000000000⟩

/-- The greatest nesting that there is room for. -/
def Limits.greatestNesting : Nat := 100000

/-- The bounds after the levels that may nest have been raised, as far as there is room. -/
def Limits.raise (limits : Limits) (nesting : Nat) : Limits :=
  { limits with nesting := max limits.nesting (min nesting greatestNesting) }

namespace EvalM

/-- A computation that leaves the store alone. -/
def ofExcept {α : Type} : Except Error α → EvalM α
  | .ok a => pure a
  | .error e => throw e

/-- Gives marks to as many new objects as `count`; answers with the first of them. -/
def marks (count : Nat) : EvalM Nat :=
  modifyGet fun s => (s.fresh, { s with fresh := s.fresh + count })

/-- The value with the given content whose objects are all new. -/
def place (d : Datum) : EvalM Value :=
  modifyGet fun s => let (v, m) := d.place s.fresh; (v, { s with fresh := m })

/-- The value of a variable. -/
def lookup (f : FrameId) (n : Symbol) : EvalM Value := do ofExcept ((← get).lookup f n)

/-- Binds a variable. -/
def define (f : FrameId) (n : Symbol) (v : Value) : EvalM Unit := fun s =>
  match s.define f n v with
  | .ok t => .ok () t
  | .error e => .error e s

/-- Changes the nearest binding of a variable. -/
def assign (f : FrameId) (n : Symbol) (v : Value) : EvalM Unit := fun s =>
  match s.assign f n v with
  | .ok t => .ok () t
  | .error e => .error e s

/-- Makes a frame that binds parameters to arguments. -/
def extend (params args : Value) (f : FrameId) : EvalM FrameId := fun s =>
  match s.extend params args f with
  | .ok (g, t) => .ok g t
  | .error e => .error e s

end EvalM

namespace Evaluation

/-- An evaluator of expressions in frames. -/
abbrev Evaluator := Value → FrameId → EvalM Value

/-- Evaluates operands from left to right. -/
def operands (ev : Evaluator) (f : FrameId) : Value → EvalM (List Value)
  | .pair _ e es => do
    let v ← ev e f
    return v :: (← operands ev f es)
  | .nil => return []
  | _ => throw .improperOperands

/-- A new list of arguments. -/
def argumentList (vs : List Value) : EvalM Value := do
  return Value.list (← EvalM.marks vs.length) vs .nil

/-- Evaluates the forms of a body in order, up to the last, which is left to do. -/
def body (ev : Evaluator) (f : FrameId) : Value → EvalM Next
  | .pair _ e .nil => return .tail e f
  | .pair _ e es => do
    let _ ← ev e f
    body ev f es
  | _ => throw .lambdaShape

/-- Applies a procedure to a list of arguments. -/
def apply (ev : Evaluator) (procedure args : Value) : EvalM Next :=
  match procedure with
  | .primitive _ p => do
    return .done (← EvalM.ofExcept (p.apply args (← EvalM.marks 1)))
  | .closure _ params forms f => do
    body ev (← EvalM.extend params args f) forms
  | v => throw (.notProcedure v)

/-- The procedure that closes over a frame. -/
def close (params forms : Value) (f : FrameId) : EvalM Value := do
  return .closure (← EvalM.marks 1) params forms f

/-- The expression `(lambda params . forms)`, its two pairs marked from `m` on. -/
def lambdaExpression (m : Nat) (params forms : Value) : Value :=
  .pair m (.symbol .lambda) (.pair (m + 1) params forms)

/-- Evaluates a special form. Only `#t` selects the consequent of a conditional. The value
of a procedure definition is that of a new `lambda` expression, which is evaluated one level
deeper and fails if the parameters are no list of symbols. -/
def special (ev : Evaluator) (f : FrameId) : Form → EvalM Next
  | .quote d => return .done d
  | .assign n e => do
    EvalM.assign f n (← ev e f)
    return .done (.symbol .ok)
  | .define n e => do
    EvalM.define f n (← ev e f)
    return .done (.symbol .ok)
  | .defineProcedure n params forms => do
    EvalM.define f n (← ev (lambdaExpression (← EvalM.marks 2) params forms) f)
    return .done (.symbol .ok)
  | .conditional test consequent alternative => do
    match ← ev test f with
    | .boolean true => return .tail consequent f
    | _ =>
      match alternative with
      | some e => return .tail e f
      | none => return .done (.boolean false)
  | .lambda params forms => return .done (← close params forms f)

/-- Evaluates an application: the operator, then the operands, then the call. -/
def application (ev : Evaluator) (f : FrameId) (operator rest : Value) : EvalM Next := do
  let procedure ← ev operator f
  let args ← argumentList (← operands ev f rest)
  apply ev procedure args

/-- One round of evaluation; subexpressions are evaluated by `ev`. -/
def round (ev : Evaluator) (e : Value) (f : FrameId) : EvalM Next :=
  match e with
  | .boolean _ | .integer _ | .character _ | .string _ _ => return .done e
  | .symbol n => return .done (← EvalM.lookup f n)
  | .pair _ first rest =>
    match first.keyword? with
    | some k => do special ev f (← EvalM.ofExcept (Form.parse k rest))
    | none => application ev f first rest
  | _ => throw (.notExpression e)

end Evaluation

/-- Evaluates an expression in a frame, in at most `rounds` rounds in a row and with
evaluations nested at most `nesting` levels below this one. -/
def evaluate : (rounds nesting : Nat) → Value → FrameId → EvalM Value
  | 0, _, _, _ => throw .unfinished
  | rounds + 1, nesting, e, f => do
    let inner : Evaluation.Evaluator :=
      match nesting with
      | 0 => fun _ _ => throw .depth
      | n + 1 => evaluate rounds n
    match ← Evaluation.round inner e f with
    | .done v => return v
    | .tail e f => evaluate rounds nesting e f

end SmallScheme
