import SmallScheme.Text.Blank
import SmallScheme.Text.Decimal

/-!
# Settings

The settings of the command line program, taken from the values of three variables.
A value that is missing, or that makes no sense, leaves the default.
-/

namespace SmallScheme

/-- The variables, as far as they are set. -/
structure Variables where
  /-- The prompt of the interactive loop. -/
  prompt : Option String := none
  /-- How deep evaluations may nest. -/
  recursionLimit : Option String := none
  /-- The name of the least level of a message that is logged. -/
  logLevel : Option String := none

/-- The settings. -/
structure Settings where
  /-- The prompt of the interactive loop. -/
  prompt : String
  /-- How deep evaluations may nest. -/
  recursionLimit : Nat
  /-- The least level of a message that is logged. -/
  logLevel : Nat

namespace Settings

/-- The recursion limit when none is set. -/
def defaultLimit : Nat := 10000

/-- The greatest recursion limit that can be set. -/
def greatestLimit : Nat := 0x7FFFFFFF

/-- The recursion limit that a text denotes: a positive integer, with blanks around it. -/
def limitOf (text : String) : Nat :=
  match Text.decimalInteger? (Text.trimBlanks text.toList) with
  | some (.ofNat (n + 1)) => n + 1
  | _ => defaultLimit

/-- The capital of a letter of a level name. Beyond ASCII only two letters have a capital in
ASCII. -/
def capital (c : Char) : Char :=
  if c = 'ı' then 'I' else if c = 'ſ' then 'S' else c.toUpper

/-- The levels and their names. -/
def levels : List (String × Nat) :=
  [("CRITICAL", 50), ("FATAL", 50), ("ERROR", 40), ("WARNING", 30), ("WARN", 30), ("INFO", 20),
   ("DEBUG", 10), ("NOTSET", 0)]

/-- The level when none is set. -/
def defaultLevel : Nat := 30

/-- The level that a text names, in letters of either case and with blanks around it. -/
def levelOf (text : String) : Nat :=
  let name := String.ofList ((Text.trimBlanks text.toList).map capital)
  (levels.lookup name).getD defaultLevel

/-- The settings that variables give. -/
def ofVariables (vars : Variables) : Settings where
  prompt := vars.prompt.getD "> "
  recursionLimit := (vars.recursionLimit.map limitOf).getD defaultLimit
  logLevel := (vars.logLevel.map levelOf).getD defaultLevel

/-- The recursion limit that the program sets. It is not lowered. -/
def limit (settings : Settings) : Nat := max defaultLimit settings.recursionLimit

end Settings

end SmallScheme
