import SmallScheme.Interpreter

/-!
# The log

The messages that the program writes on its standard error output while it loads files
and runs the interactive loop. Each has a level, and those below the level that is set
are left out.
-/

namespace SmallScheme.CommandLine

/-- A message of the log. -/
structure LogLine where
  /-- The level of the message. -/
  level : Nat
  /-- The text of the line. -/
  text : String

namespace LogLine

/-- A message for debugging. -/
def debug (logger message : String) : LogLine :=
  ⟨10, "DEBUG sanguinius." ++ logger ++ ": " ++ message⟩

/-- The message at the start of the program. -/
def start : LogLine :=
  debug "runtime_context" ("global environment initialised with " ++
    Text.numeral Primitive.all.length ++ " primitives")

/-- The message before a form is evaluated. A datum that could be read can be written. -/
def form (nesting : Nat) (d : Datum) : LogLine :=
  debug "interpreter" ("eval " ++ (d.write nesting).toOption.getD "")

/-- The messages of a turn of the interactive loop. -/
def ofTurn (nesting : Nat) : Turn → List LogLine
  | .unreadable e => [debug "interpreter" ("read error: " ++ (Error.read e).text nesting)]
  | .printed d _ => [form nesting d]
  | .failed d e => [form nesting d, debug "interpreter" ("evaluation error: " ++ e.text nesting)]
  | .aborted d _ => d.toList.map (form nesting)
  | .ended => []

/-- The message about a file that cannot be loaded. -/
def unloadable (path reason : String) : LogLine :=
  ⟨40, "ERROR sanguinius: failed to load " ++ path ++ ": " ++ reason⟩

/-- The lines that are shown when messages from a given level on are. -/
def render (level : Nat) (lines : List LogLine) : String :=
  String.join ((lines.filter (level ≤ ·.level)).map (·.text ++ "\n"))

end LogLine

end SmallScheme.CommandLine
