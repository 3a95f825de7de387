import SmallScheme.Object.Basic
import SmallScheme.Text.Numeral
import SmallScheme.Text.Quoted

/-!
# External forms

The external form of an object is the text that stands for it; for an object without
procedures it is text that the reader turns back into the same content.
`Object.write` gives it, `Object.describe` gives the form that messages show.

## The model

Writing nests once for every pair met as the first component of another: the pairs
along `rest` are written in a loop. Beyond a given number of levels writing fails.
The text is built from left to right onto what is already written, so the leftmost
failure is the one that shows.
-/

namespace SmallScheme

/-- Why an object cannot be written. -/
inductive WriteError where
  /-- The object nests deeper than allowed. -/
  | tooDeep
  /-- The object, or a part of it, is `absent`. -/
  | noExternalForm
  deriving DecidableEq

namespace WriteError

/-- The text of the message. -/
def message : WriteError → String
  | tooDeep => "value nested too deeply to write"
  | noExternalForm => "cannot write host object None"

end WriteError

/-- How a character is written inside a string literal. -/
def stringItem (c : Char) : List Char :=
  if c = '\n' then ['\\', 'n']
  else if c = '\\' then ['\\', '\\']
  else if c = '"' then ['\\', '"']
  else [c]

/-- The literal of a string: its characters between double quotes. -/
def stringLiteral (s : String) : String :=
  String.ofList ('"' :: s.toList.flatMap stringItem ++ ['"'])

/-- The literal of a character: two are named, the others stand for themselves. -/
def characterLiteral (c : Char) : String :=
  if c = '\n' then "#\\newline"
  else if c = ' ' then "#\\space"
  else String.ofList ['#', '\\', c]

namespace Object

variable {ι : Type}

/-- The external form of an object that is not a pair. -/
def writeAtom : Object ι → Except WriteError String
  | boolean b => .ok (if b then "#t" else "#f")
  | integer n => .ok (Text.numeral n)
  | character c => .ok (characterLiteral c)
  | string _ text => .ok (stringLiteral text)
  | nil => .ok "()"
  | symbol s => .ok s.name
  | pair _ _ _ => .ok ""
  | primitive _ _ => .ok "#<procedure>"
  | closure _ _ _ _ => .ok "#<procedure>"
  | absent => .error .noExternalForm

mutual

/-- `writeOn n o text`: the text followed by the external form of `o`, which may nest `n`
levels deep. -/
def writeOn : Nat → Object ι → String → Except WriteError String
  | 0, _, _ => .error .tooDeep
  | n + 1, pair _ first rest, text => do
    writeRestOn n rest (← writeOn n first (text.push '('))
  | _ + 1, o, text => do return text ++ (← writeAtom o)

/-- The text followed by what is left of a list after one of its elements: the other
elements, the tail of an improper list, and the closing parenthesis. -/
def writeRestOn : Nat → Object ι → String → Except WriteError String
  | _, nil, text => .ok (text.push ')')
  | n, pair _ first rest, text => do
    writeRestOn n rest (← writeOn n first (text.push ' '))
  | 0, _, _ => .error .tooDeep
  | _ + 1, o, text => do return (text ++ " . " ++ (← writeAtom o)).push ')'

end

/-- The external form of an object that nests at most `nesting` levels deep. -/
def write (nesting : Nat) (o : Object ι) : Except WriteError String := o.writeOn nesting ""

/-- The form of an object that messages show. -/
def describe (nesting : Nat) : Object ι → Except WriteError String
  | character c => .ok ("Char(" ++ Text.quoted (String.singleton c) ++ ")")
  | string _ text => .ok (Text.quoted text)
  | symbol s => .ok ("Symbol(" ++ Text.quoted s.name ++ ")")
  | primitive _ p => .ok ("<Primitive " ++ p.name ++ ">")
  | closure _ parameters _ _ => do return "<Lambda " ++ (← parameters.write nesting) ++ ">"
  | absent => .ok "None"
  | pair mark first rest => do return "Pair<" ++ (← (pair mark first rest).write nesting) ++ ">"
  | o => o.write nesting

/-- The form of an object used as a name in a message: symbols and strings stand bare. -/
def plain (nesting : Nat) : Object ι → Except WriteError String
  | symbol s => .ok s.name
  | string _ text => .ok text
  | o => o.describe nesting

end Object

end SmallScheme
