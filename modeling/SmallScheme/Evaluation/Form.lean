import SmallScheme.Error

/-!
# Special forms

A pair headed by one of five keywords is a special form. `Form.parse` checks the shape
of what follows the keyword before any part of the form is evaluated. Only the
parameters of a procedure definition are left unchecked: its value is that of a `lambda`
expression made of them and of the body, and evaluating that expression checks them.
-/

namespace SmallScheme

/-- The symbols that head special forms. -/
inductive Keyword where
  /-- `quote` -/
  | quote
  /-- `set!` -/
  | assign
  /-- `define` -/
  | define
  /-- `if` -/
  | conditional
  /-- `lambda` -/
  | lambda
  deriving DecidableEq

/-- The keyword that a symbol is. -/
def Symbol.keyword? (s : Symbol) : Option Keyword :=
  if s.name = "quote" then some .quote
  else if s.name = "set!" then some .assign
  else if s.name = "define" then some .define
  else if s.name = "if" then some .conditional
  else if s.name = "lambda" then some .lambda
  else none

/-- The keyword that heads a form with the given first component. -/
def Object.keyword? {ι : Type} : Object ι → Option Keyword
  | .symbol s => s.keyword?
  | _ => none

/-- A special form whose shape has been checked. -/
inductive Form where
  /-- `(quote d)` -/
  | quote (d : Value)
  /-- `(set! n e)` -/
  | assign (n : Symbol) (e : Value)
  /-- `(define n e)` -/
  | define (n : Symbol) (e : Value)
  /-- `(define (n . params) . body)`, where `params` may be anything -/
  | defineProcedure (n : Symbol) (params body : Value)
  /-- `(if test consequent)` or `(if test consequent alternative)` -/
  | conditional (test consequent : Value) (alternative : Option Value)
  /-- `(lambda params . body)` -/
  | lambda (params body : Value)

/-- Checks that parameters are a proper list of symbols. -/
def checkParameters : Value → Except Error Unit
  | .pair _ (.symbol _) params => checkParameters params
  | .pair _ p _ => .error (.parameter p)
  | .nil => .ok ()
  | _ => .error .variadic

namespace Form

/-- The quotation with the given operands. -/
def parseQuote : Value → Except Error Form
  | .pair _ d .nil => .ok (.quote d)
  | _ => .error .quoteShape

/-- The assignment with the given operands. -/
def parseAssign : Value → Except Error Form
  | .pair _ (.symbol n) (.pair _ e .nil) => .ok (.assign n e)
  | .pair _ name (.pair _ _ .nil) => .error (.assignmentTarget name)
  | _ => .error .assignmentShape

/-- The definition of a target by a proper list of at least one form. -/
def parseTarget (target body : Value) : Except Error Form :=
  match target, body with
  | .symbol n, .pair _ e .nil => .ok (.define n e)
  | .symbol _, _ => .error .definitionValue
  | .pair _ (.symbol n) params, body => .ok (.defineProcedure n params body)
  | target, _ => .error (.definitionTarget target)

/-- The definition with the given operands. -/
def parseDefine : Value → Except Error Form
  | .pair _ target (.pair m e es) =>
    if es.isList then parseTarget target (.pair m e es) else .error .definitionShape
  | _ => .error .definitionShape

/-- The conditional with the given operands. -/
def parseConditional : Value → Except Error Form
  | .pair _ test (.pair _ consequent .nil) => .ok (.conditional test consequent none)
  | .pair _ test (.pair _ consequent (.pair _ alternative .nil)) =>
    .ok (.conditional test consequent (some alternative))
  | _ => .error .conditionalShape

/-- The procedure with the given operands. -/
def parseLambda : Value → Except Error Form
  | .pair _ params (.pair m e es) =>
    if es.isList then do
      checkParameters params
      return .lambda params (.pair m e es)
    else .error .lambdaShape
  | _ => .error .lambdaShape

/-- The special form with a given keyword and operands. -/
def parse : Keyword → Value → Except Error Form
  | .quote => parseQuote
  | .assign => parseAssign
  | .define => parseDefine
  | .conditional => parseConditional
  | .lambda => parseLambda

end Form

end SmallScheme
