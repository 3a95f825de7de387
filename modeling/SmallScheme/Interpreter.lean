import SmallScheme.Evaluation.Basic
import SmallScheme.Reader.Datum
import SmallScheme.Text.Encoding

/-!
# Running whole texts

A text is a sequence of forms. Reading and evaluating alternate: a form is evaluated
before the next one is read, so forms before a fault in the text take effect.

## The model

`runStream` evaluates the forms of a stream until one fails, and records the forms it
has begun. `replTurns` is the interactive loop: it goes on after an error of the
language, and after a fault in the text it goes on behind the line on which reading
stopped. It is given as the list of its turns, from which its output is made.
-/

namespace SmallScheme

/-- The error of the language that an error is shown as. -/
def Error.ofForm : Error → Error
  | .depth => .tooDeep
  | e => e

/-- Evaluates a datum, read afresh, as a form. An evaluation that nests too deeply is an
error of the form. -/
def evalForm (limits : Limits) (d : Datum) (f : FrameId) : EvalM Value := do
  let v ← EvalM.place d
  EStateM.adaptExcept Error.ofForm (evaluate limits.rounds limits.nesting v f)

/-! ### Reading a text -/

/-- The external forms of the data of a text. -/
def readForms (limits : Limits) (text : String) : Except Error (List String) := do
  let reading := Reader.readAll limits.nesting (.ofString text)
  match reading.failure with
  | some e => throw (.read e)
  | none => Except.mapError .write (reading.data.mapM fun entry => entry.1.write limits.nesting)

/-! ### Evaluating a text -/

/-- What evaluating a text gave. -/
structure Run where
  /-- The forms whose evaluation was begun, in order. -/
  forms : List Datum
  /-- The value of the last form, `absent` if there was none, or the first error. -/
  outcome : Except Error Value

/-- The run with one more form in front. -/
def Run.begin (d : Datum) (r : Run) : Run := { r with forms := d :: r.forms }

/-- Reads the next form of a stream and gives it with the stream after it, none at the end.
Unless the stream is `complete`, something that cannot be decoded stands at its end. -/
def readForm (limits : Limits) (complete : Bool) (s : CharStream) :
    Except Error (Option (Datum × CharStream)) :=
  match Reader.read limits.nesting s with
  | .ok d t =>
    if complete || !t.exhausted then .ok (d.map fun d => (d, t)) else .error .decoding
  | .error e t => .error (if complete || !t.exhausted then .read e else .decoding)

/-- Evaluates at most `count` forms of a stream; `last` is the value before the first. -/
def runStream (limits : Limits) (f : FrameId) (complete : Bool) :
    (count : Nat) → CharStream → (last : Value) → Store → Run × Store
  | 0, _, last, store => (⟨[], .ok last⟩, store)
  | count + 1, s, last, store =>
    match readForm limits complete s with
    | .error e => (⟨[], .error e⟩, store)
    | .ok none => (⟨[], .ok last⟩, store)
    | .ok (some (d, t)) =>
      match evalForm limits d f store with
      | .error e store => (⟨[d], .error e⟩, store)
      | .ok v store =>
        let (run, store) := runStream limits f complete count t v store
        (run.begin d, store)

/-- Evaluates the forms of a text. -/
def runText (limits : Limits) (text : String) (f : FrameId) (store : Store) : Run × Store :=
  let s := CharStream.ofString text
  runStream limits f true (s.available + 1) s .absent store

/-- The value of the last form of a text, `absent` if it has none. -/
def evalText (limits : Limits) (text : String) (f : FrameId) : EvalM Value := fun store =>
  match runText limits text f store with
  | (⟨_, .ok v⟩, store) => .ok v store
  | (⟨_, .error e⟩, store) => .error e store

/-- Evaluates the forms of a file. -/
def runFile (limits : Limits) (bytes : ByteArray) (f : FrameId) (store : Store) : Run × Store :=
  let file := Text.FileText.ofBytes bytes
  let s := CharStream.ofString file.text
  runStream limits f file.complete (s.available + 1) s .absent store

/-! ### The interactive loop -/

/-- One turn of the interactive loop. -/
inductive Turn where
  /-- The text has a fault; the rest of the line is skipped. -/
  | unreadable (e : ReadError)
  /-- A form has a value with the given external form. -/
  | printed (form : Datum) (text : String)
  /-- A form has no value, or none that can be written. -/
  | failed (form : Datum) (e : Error)
  /-- The loop stops at an error outside the language. -/
  | aborted (form : Option Datum) (e : Error)
  /-- The loop stops at the end of input. -/
  | ended

/-- Evaluates a form and writes its value. -/
def evalPrint (limits : Limits) (d : Datum) (f : FrameId) : EvalM String := do
  match (← evalForm limits d f).write limits.nesting with
  | .ok text => return text
  | .error e => throw (.write e)

/-- At most `count` turns of the interactive loop. -/
def replTurns (limits : Limits) (f : FrameId) :
    (count : Nat) → CharStream → Store → List Turn × Store
  | 0, _, store => ([], store)
  | count + 1, s, store =>
    match Reader.read limits.nesting s with
    | .error .digitLimit _ => ([.aborted none (.read .digitLimit)], store)
    | .error e t =>
      let (turns, store) := replTurns limits f count t.skipLine store
      (.unreadable e :: turns, store)
    | .ok none _ => ([.ended], store)
    | .ok (some d) t =>
      match evalPrint limits d f store with
      | .ok text store =>
        let (turns, store) := replTurns limits f count t store
        (.printed d text :: turns, store)
      | .error e store =>
        if e.isOrdinary then
          let (turns, store) := replTurns limits f count t store
          (.failed d e :: turns, store)
        else ([.aborted (some d) e], store)

/-- The interactive loop on a text. -/
def repl (limits : Limits) (input : String) (f : FrameId) (store : Store) : List Turn × Store :=
  let s := CharStream.ofString input
  replTurns limits f (s.available + 1) s store

namespace Error

/-- The text of an error in the output of the interactive loop. -/
def text (nesting : Nat) (e : Error) : String := (e.report nesting).message.getD ""

end Error

namespace Turn

/-- What a turn writes after the prompt. -/
def answer (nesting : Nat) : Turn → String
  | unreadable e => "error: " ++ (Error.read e).text nesting ++ "\n"
  | printed _ text => text ++ "\n"
  | failed _ e => "error: " ++ e.text nesting ++ "\n"
  | aborted _ _ => ""
  | ended => "\n"

/-- The error that stopped the loop. -/
def abortion? : Turn → Option Error
  | aborted _ e => some e
  | _ => none

end Turn

/-- Everything that the interactive loop writes. -/
def transcript (nesting : Nat) (prompt : String) (turns : List Turn) : String :=
  turns.foldl (fun text turn => text ++ prompt ++ turn.answer nesting) ""

end SmallScheme
