import SmallScheme.Text.Decimal
import SmallScheme.Text.Quoted

/-!
# Command line arguments

What the arguments of the program ask for.

An argument is an option if it starts with `-` and is neither `-` itself, a negative
number, nor a text with a space in it. A long option may be shortened as long as it is
not ambiguous; an option given by its letter may be followed by the letters of others,
also after `=`. `--` ends the options. The files are the arguments of the first run of
arguments that are no options; all other arguments must be options. No option takes a
value.
-/

namespace SmallScheme

/-- The options. -/
inductive Switch where
  /-- `-h` or `--help` -/
  | help
  /-- `--no-repl` -/
  | noRepl
  /-- `--version` -/
  | version
  deriving DecidableEq

/-- An option as messages name it. -/
def Switch.label : Switch → String
  | help => "-h/--help"
  | noRepl => "--no-repl"
  | version => "--version"

/-- What a command line asks for. -/
inductive Invocation where
  /-- Load files, and then run the interactive loop or not. -/
  | run (files : List String) (interactive : Bool)
  /-- Print the help text. -/
  | help
  /-- Print the version. -/
  | version
  /-- The command line is wrong. -/
  | misuse (message : String)
  deriving DecidableEq

namespace CommandLine

/-- The long spellings of the options. -/
def longSpellings : List (String × Switch) :=
  [("--help", .help), ("--no-repl", .noRepl), ("--version", .version)]

/-- The option with a given letter. -/
def shortSwitch? (c : Char) : Option Switch := if c = 'h' then some .help else none

/-- An argument. -/
inductive Argument where
  /-- An operand. -/
  | operand (s : String)
  /-- The mark `--` that ends the options. -/
  | endOfOptions
  /-- An option, perhaps with a value after `=`. -/
  | option (o : Switch) (value : Option String)
  /-- An option given by its letter, and the letters after it. -/
  | cluster (o : Switch) (letters : List Char)
  /-- Something that looks like an option and is none. -/
  | unknown (s : String)
  deriving DecidableEq

/-- The text before the first `=`, and the text after it. -/
def splitValue (cs : List Char) : List Char × Option String :=
  match cs.span (· ≠ '=') with
  | (name, _ :: value) => (name, some (String.ofList value))
  | (name, []) => (name, none)

/-- A decimal number with a minus sign and perhaps a point, and perhaps a newline at its
end. -/
def isNegativeNumber (cs : List Char) : Bool :=
  let digits (cs : List Char) : Bool := cs.all fun c => (Text.decimalValue? c).isSome
  let cs := if cs.getLast? = some '\n' then cs.dropLast else cs
  match cs with
  | '-' :: cs =>
    match cs.span (· ≠ '.') with
    | (whole, []) => !whole.isEmpty && digits whole
    | (whole, _ :: fraction) => digits whole && !fraction.isEmpty && digits fraction
  | _ => false

/-- What an argument is that names no option. -/
def classifyOther (s : String) : Argument :=
  if isNegativeNumber s.toList || s.toList.contains ' ' then .operand s else .unknown s

/-- What an argument is that starts with two dashes: the option that it is, or that it is
the start of. -/
def classifyLong (s : String) : Except String Argument :=
  let (start, value) := splitValue s.toList
  match longSpellings.filter fun entry => start.isPrefixOf entry.1.toList with
  | [] => .ok (classifyOther s)
  | [(_, o)] => .ok (.option o value)
  | several =>
    .error ("ambiguous option: " ++ s ++ " could match " ++ ", ".intercalate (several.map (·.1)))

/-- What an option is that is given by its letter and followed by other characters. -/
def classifyShort (o : Switch) : List Char → Argument
  | ['='] => .option o (some "")
  | '=' :: letters => .cluster o letters
  | letters => .cluster o letters

/-- What an argument before the mark `--` is. -/
def classify (s : String) : Except String Argument :=
  match s.toList with
  | '-' :: '-' :: _ => classifyLong s
  | '-' :: c :: rest =>
    match shortSwitch? c with
    | some o => .ok (classifyShort o rest)
    | none => .ok (classifyOther s)
  | _ => .ok (.operand s)

/-- What the arguments are. All that follows the mark `--` are operands. -/
def classifyAll : List String → Except String (List Argument)
  | [] => .ok []
  | s :: rest =>
    if s = "--" then .ok (.endOfOptions :: rest.map .operand)
    else do return (← classify s) :: (← classifyAll rest)

/-- The message about a value attached to an option that takes none. -/
def refusal (o : Switch) (value : String) : String :=
  "argument " ++ o.label ++ ": ignored explicit argument " ++ Text.quoted value

/-- The options asked for by an option and the letters after it. From the first letter on
that is no option, the letters are a value of the option before them. -/
def expand (o : Switch) : List Char → Except String (List Switch)
  | [] => .ok [o]
  | c :: cs =>
    match shortSwitch? c with
    | some next => do return o :: (← expand next cs)
    | none => .error (refusal o (String.ofList (c :: cs)))

/-- What has been gathered from the arguments so far. -/
structure Gathered where
  /-- The files, once a run of operands has been met. -/
  files : Option (List String) := none
  /-- The interactive loop is wanted. -/
  interactive : Bool := true
  /-- The arguments that are not understood. -/
  extras : List String := []

/-- Adds a run of operands. The first run holds the files, and its first mark `--` is not
one of them. -/
def Gathered.addRun (g : Gathered) (run : List String) : Gathered :=
  if run.isEmpty then g
  else
    match g.files with
    | none => { g with files := some (run.erase "--") }
    | some _ => { g with extras := g.extras ++ run }

/-- Follows options in order, until one of them decides the invocation. -/
def follow (g : Gathered) : List Switch → Invocation ⊕ Gathered
  | [] => .inr g
  | .help :: _ => .inl .help
  | .version :: _ => .inl .version
  | .noRepl :: os => follow { g with interactive := false } os

/-- The invocation once all arguments have been seen. -/
def Gathered.finish (g : Gathered) : Invocation :=
  if g.extras.isEmpty then .run (g.files.getD []) g.interactive
  else .misuse ("unrecognized arguments: " ++ " ".intercalate g.extras)

/-- Gathers the arguments from left to right; `run` holds the operands since the last
option. -/
def gather (g : Gathered) (run : List String) : List Argument → Invocation
  | [] => (g.addRun run).finish
  | .operand s :: rest => gather g (run ++ [s]) rest
  | .endOfOptions :: rest => gather g (run ++ ["--"]) rest
  | .unknown s :: rest =>
    let g := g.addRun run
    gather { g with extras := g.extras ++ [s] } [] rest
  | .option o (some value) :: _ => .misuse (refusal o value)
  | .option o none :: rest =>
    match follow (g.addRun run) [o] with
    | .inl invocation => invocation
    | .inr g => gather g [] rest
  | .cluster o letters :: rest =>
    match expand o letters with
    | .error message => .misuse message
    | .ok os =>
      match follow (g.addRun run) os with
      | .inl invocation => invocation
      | .inr g => gather g [] rest

/-- What a command line asks for. -/
def parse (args : List String) : Invocation :=
  match classifyAll args with
  | .error message => .misuse message
  | .ok arguments => gather {} [] arguments

end CommandLine

end SmallScheme
