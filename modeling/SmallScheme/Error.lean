import SmallScheme.Object.Writer
import SmallScheme.Reader.Fault

/-!
# Errors

The ways in which reading, evaluating and writing fail, and how each is reported.

## The model

An error is a cause that holds the offending object. Its message is made only when it
is reported. Showing an object in a message can itself fail, if the object nests too
deeply or has no external form; that failure is then reported in place of the error.

The kinds of error that lie outside the language carry no message: an evaluation that
nests too deeply, which an interpreter turns into an error of the language, an integer
with too many digits to be converted, a file that is no UTF-8, a path that names
nothing, a limit that is too large, and an evaluation cut off because it took too many
rounds.
-/

namespace SmallScheme

/-- A type that a primitive asks of its argument. -/
inductive Expected where
  /-- An integer. -/
  | integer
  /-- A character. -/
  | character
  /-- A string. -/
  | string
  /-- A symbol. -/
  | symbol
  /-- A pair. -/
  | pair
  deriving DecidableEq

/-- The words of a message for an expected type. -/
def Expected.message : Expected → String
  | integer => "an integer"
  | character => "a character"
  | string => "a string"
  | symbol => "a symbol"
  | pair => "a pair"

/-- The kinds of error. -/
inductive ErrorKind where
  /-- The text cannot be read. -/
  | read
  /-- The object cannot be written. -/
  | write
  /-- The evaluation as a whole is not possible. -/
  | evaluation
  /-- A symbol is not bound. -/
  | unbound
  /-- An expression has a wrong shape. -/
  | shape
  /-- Something that is not a procedure is applied. -/
  | application
  /-- The number of arguments is wrong. -/
  | arity
  /-- An object has a wrong type. -/
  | typing
  /-- An object has the right type and a wrong value. -/
  | value
  /-- Evaluations nest deeper than allowed. -/
  | depth
  /-- An integer has too many digits to be converted. -/
  | digits
  /-- A file is no UTF-8. -/
  | decoding
  /-- A path holds a null character. -/
  | path
  /-- A recursion limit is too large to be set. -/
  | limit
  /-- The evaluation was cut off. -/
  | unfinished
  deriving DecidableEq

/-- A cause of failure. -/
inductive Error where
  /-- Reading failed. -/
  | read (e : ReadError)
  /-- Writing failed. -/
  | write (e : WriteError)
  /-- A form whose evaluation nests deeper than allowed. -/
  | tooDeep
  /-- A definition in the frame that encloses all others. -/
  | definitionInEmpty (name : Symbol)
  /-- A name that no frame binds. -/
  | unbound (name : Value)
  /-- A definition of something that is not a symbol. -/
  | definitionOf (name : Value)
  /-- An object that is no expression. -/
  | notExpression (e : Value)
  /-- An application whose operands are no proper list. -/
  | improperOperands
  /-- A quotation of other than one datum. -/
  | quoteShape
  /-- An assignment that is not of one name and one value. -/
  | assignmentShape
  /-- An assignment to something that is not a symbol. -/
  | assignmentTarget (name : Value)
  /-- A definition without a name or without a value. -/
  | definitionShape
  /-- A definition of a symbol with more than one value. -/
  | definitionValue
  /-- A definition of what is neither a symbol nor a call pattern. -/
  | definitionTarget (target : Value)
  /-- A conditional with too few or too many parts. -/
  | conditionalShape
  /-- A `lambda` without parameters or without a body. -/
  | lambdaShape
  /-- A parameter that is not a symbol. -/
  | parameter (p : Value)
  /-- A `lambda` whose parameters are no proper list. -/
  | variadic
  /-- Parameters that are no proper list, met when a frame is made. -/
  | parameterTail (tail : Value)
  /-- An application of something that is not a procedure. -/
  | notProcedure (v : Value)
  /-- A primitive lacks its argument number `count`. -/
  | missingArgument (who : String) (count : Int)
  /-- Fewer arguments than parameters. -/
  | tooFew (expected got : Nat)
  /-- More arguments than parameters. -/
  | tooMany (expected got : Nat)
  /-- An argument of a wrong type. -/
  | wrongType (who : Primitive) (expected : Expected) (v : Value)
  /-- A list that ends in something other than the empty list. -/
  | improperList (tail : Value)
  /-- An integer that is no code point of a character. -/
  | codePoint (n : Int)
  /-- A string that is no integer literal. -/
  | notNumeral (s : String)
  /-- An integer literal that is not a fixnum. -/
  | numeralRange (s : String)
  /-- A sum that is not a fixnum. -/
  | overflow (n : Int)
  /-- An evaluation nested deeper than allowed. -/
  | depth
  /-- An integer literal with too many digits. -/
  | digitLimit
  /-- A file that is no UTF-8. -/
  | decoding
  /-- An evaluation that took too many rounds. -/
  | unfinished
  deriving DecidableEq

/-- An error as it is shown. -/
structure Report where
  /-- The kind of the error. -/
  kind : ErrorKind
  /-- The message, unless the error lies outside the language. -/
  message : Option String
  deriving DecidableEq

namespace ReadError

/-- The message, with the position of a fault. -/
def message? : ReadError → Option String
  | malformed fault position =>
    some (fault.message ++ " (at offset " ++ Text.numeral position ++ ")")
  | digitLimit => none

/-- How a failure to read is shown. -/
def report (e : ReadError) : Report :=
  match e with
  | digitLimit => ⟨.digits, none⟩
  | _ => ⟨.read, e.message?⟩

end ReadError

namespace WriteError

/-- How a failure to write is shown. -/
def report (e : WriteError) : Report :=
  match e with
  | tooDeep => ⟨.write, some e.message⟩
  | noExternalForm => ⟨.typing, some e.message⟩

end WriteError

namespace Error

/-- The kind of an error whose message can be made. -/
def kind : Error → ErrorKind
  | read e => e.report.kind
  | write e => e.report.kind
  | tooDeep | definitionInEmpty _ => .evaluation
  | unbound _ => .unbound
  | definitionOf _ | notExpression _ | improperOperands | quoteShape | assignmentShape
  | assignmentTarget _ | definitionShape | definitionValue | definitionTarget _
  | conditionalShape | lambdaShape | parameter _ | variadic | parameterTail _ => .shape
  | notProcedure _ => .application
  | missingArgument _ _ | tooFew _ _ | tooMany _ _ => .arity
  | wrongType _ _ _ | improperList _ => .typing
  | codePoint _ | notNumeral _ | numeralRange _ | overflow _ => .value
  | depth => .depth
  | digitLimit => .digits
  | decoding => .decoding
  | unfinished => .unfinished

/-- The message of an error, if the objects in it can be shown within `nesting` levels. -/
def message (nesting : Nat) : Error → Except WriteError String
  | read e => .ok (e.message?.getD "")
  | write e => .ok e.message
  | tooDeep => .ok "maximum recursion depth exceeded"
  | definitionInEmpty name => .ok ("Cannot define " ++ name.name ++ " in the empty environment")
  | unbound name => do return "unbound variable '" ++ (← name.plain nesting) ++ "'"
  | definitionOf name => do
    return "Cannot define " ++ (← name.describe nesting) ++ ": not a symbol"
  | notExpression e => do
    return "cannot eval unknown expression type " ++ (← e.describe nesting)
  | improperOperands => .ok "improper operand list in application"
  | quoteShape => .ok "quote expects exactly 1 argument"
  | assignmentShape => .ok "set! requires exactly 2 arguments: (set! var value)"
  | assignmentTarget name => do
    return "set!: invalid variable name " ++ (← name.describe nesting)
  | definitionShape => .ok "define requires a name and a value"
  | definitionValue => .ok "define requires exactly 2 arguments: (define var value)"
  | definitionTarget target => do
    return "define: invalid definition name " ++ (← target.describe nesting)
  | conditionalShape => .ok "if requires a test, a consequent and an optional alternative"
  | lambdaShape => .ok "lambda requires a parameter list and a body"
  | parameter p => do return "invalid parameter " ++ (← p.describe nesting)
  | variadic => .ok "variadic parameter lists are not supported"
  | parameterTail tail => do
    return "invalid parameter list, improper tail " ++ (← tail.describe nesting)
  | notProcedure v => do
    return "invalid application: " ++ (← v.write nesting) ++ " is not a procedure"
  | missingArgument who count =>
    .ok (who ++ ": expected at least " ++ Text.numeral count ++ " argument(s)")
  | tooFew expected got =>
    .ok ("too few arguments: expected " ++ Text.numeral expected ++ ", got " ++ Text.numeral got)
  | tooMany expected got =>
    .ok ("too many arguments: expected " ++ Text.numeral expected ++ ", got " ++ Text.numeral got)
  | wrongType who expected v => do
    return who.name ++ ": expected " ++ expected.message ++ ", got " ++ (← v.describe nesting)
  | improperList tail => do
    return "expected a proper list, found tail " ++ (← tail.describe nesting)
  | codePoint n => .ok ("integer->char: " ++ Text.numeral n ++ " is not a valid code point")
  | notNumeral s => .ok ("string->number: " ++ Text.quoted s ++ " is not an integer literal")
  | numeralRange s => .ok ("string->number: " ++ s ++ " is out of fixnum range")
  | overflow n => .ok ("+: fixnum overflow (" ++ Text.numeral n ++ ")")
  | depth | digitLimit | decoding | unfinished => .ok ""

/-- An error of the language, which a session survives. -/
def isOrdinary (e : Error) : Bool :=
  match e.kind with
  | .depth | .digits | .decoding | .path | .limit | .unfinished => false
  | _ => true

/-- How an error is shown: by its message, or by the failure to show an object in it. -/
def report (nesting : Nat) (e : Error) : Report :=
  match e.message nesting with
  | .ok text => ⟨e.kind, if e.isOrdinary then some text else none⟩
  | .error w => w.report

end Error

end SmallScheme
