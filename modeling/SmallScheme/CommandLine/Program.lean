import SmallScheme.CommandLine.Arguments
import SmallScheme.CommandLine.Files
import SmallScheme.CommandLine.Log
import SmallScheme.Settings

/-!
# The command line program

Loads the files named on the command line into one frame and then runs the interactive
loop there. `CommandLine.run` is the whole program, given the files, the standard input
and the variables: it answers with what is written on the two outputs and with the exit
code.
-/

namespace SmallScheme.CommandLine

/-! ### Texts -/

/-- The first line of the help text. -/
def usage : String := "usage: sanguinius [-h] [--no-repl] [--version] [files ...]\n"

/-- The help text. -/
def help : String :=
  usage ++
  "\nA small Scheme interpreter.\n" ++
  "\npositional arguments:\n" ++
  "  files       source files to load before the REPL starts\n" ++
  "\noptions:\n" ++
  "  -h, --help  show this help message and exit\n" ++
  "  --no-repl   exit after loading files\n" ++
  "  --version   show program's version number and exit\n"

/-- The version as the program prints it. -/
def version : String := "sanguinius 0.13\n"

/-- The line before the first prompt. -/
def banner : String := "Welcome to Sanguinius v0.13. Use ctrl-c to exit\n"

/-! ### The program -/

/-- What a run of the program leaves behind. -/
structure Outcome where
  /-- The exit code, or the error outside the language that ended the program. -/
  exit : Except Report Nat
  /-- The recursion limit in force. -/
  limit : Nat
  /-- The standard output. -/
  stdout : String
  /-- The standard error output. -/
  stderr : String

/-- How loading files ended: the store and the log, and the exit if it is decided. -/
structure Loaded where
  /-- The store. -/
  store : Store
  /-- The log, in order. -/
  log : List LogLine
  /-- The exit, unless all files were loaded. -/
  exit : Option (Except Report Nat)

/-- Loads files in order, up to the first that fails. -/
def loadAll (limits : Limits) (fs : FileSystem) : List String → Store → Loaded
  | [], store => ⟨store, [], none⟩
  | path :: paths, store =>
    if path.toList.contains '\x00' then ⟨store, [], some (.error ⟨.path, none⟩)⟩
    else
      match fs path with
      | .error e =>
        ⟨store, [.unloadable path (e.message ++ ": " ++ Text.quoted path)], some (.ok 1)⟩
      | .ok bytes =>
        let (run, store) := runFile limits bytes Store.global store
        let lines := run.forms.map (LogLine.form limits.nesting)
        match run.outcome with
        | .ok _ =>
          let loaded := loadAll limits fs paths store
          { loaded with log := lines ++ loaded.log }
        | .error e =>
          if e.isOrdinary then
            ⟨store, lines ++ [.unloadable path (e.text limits.nesting)], some (.ok 1)⟩
          else ⟨store, lines, some (.error (e.report limits.nesting))⟩

/-- Loads files and then runs the interactive loop, if it is wanted. -/
def start (limits : Limits) (settings : Settings) (fs : FileSystem) (stdin : String)
    (files : List String) (interactive : Bool) : Outcome :=
  let loaded := loadAll limits fs files .initial
  let log := LogLine.start :: loaded.log
  let limit := settings.limit
  match loaded.exit with
  | some exit => ⟨exit, limit, "", LogLine.render settings.logLevel log⟩
  | none =>
    if interactive then
      let (turns, _) := repl limits stdin Store.global loaded.store
      let log := log ++ turns.flatMap (LogLine.ofTurn limits.nesting)
      let exit :=
        match turns.findSome? Turn.abortion? with
        | some e => .error (e.report limits.nesting)
        | none => .ok 0
      ⟨exit, limit, banner ++ transcript limits.nesting settings.prompt turns,
        LogLine.render settings.logLevel log⟩
    else ⟨.ok 0, limit, "", LogLine.render settings.logLevel log⟩

/-- The whole program. -/
def run (limits : Limits) (vars : Variables) (fs : FileSystem) (stdin : String)
    (args : List String) : Outcome :=
  match parse args with
  | .help => ⟨.ok 0, Settings.defaultLimit, help, ""⟩
  | .version => ⟨.ok 0, Settings.defaultLimit, version, ""⟩
  | .misuse message =>
    ⟨.ok 2, Settings.defaultLimit, "", usage ++ "sanguinius: error: " ++ message ++ "\n"⟩
  | .run files interactive =>
    let settings := Settings.ofVariables vars
    if Settings.greatestLimit < settings.limit then
      ⟨.error ⟨.limit, none⟩, Settings.defaultLimit, "", ""⟩
    else start (limits.raise settings.limit) settings fs stdin files interactive

end SmallScheme.CommandLine
