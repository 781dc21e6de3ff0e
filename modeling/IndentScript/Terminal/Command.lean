import IndentScript.Terminal.Guidance
import IndentScript.Terminal.Package
import IndentScript.Text.LowerCase

/-!
The commands of the terminal. A command line is a word, in capitals or not, and arguments between
blanks.
-/

namespace IndentScript

inductive Command where
  | help | quit | version | history | clearHistory | goto | install | uninstall | update
  | installList | setup | load | save | exec | eval | reset | info | tutorial | examples
  | searchHistory | exportVars | importCode | runTests | stats | config | timeExec | benchmark
  deriving DecidableEq, Repr

def Command.ofWord? : String → Option Command
  | "help" => some help
  | "quit" => some quit
  | "exit" => some quit
  | "version" => some version
  | "history" => some history
  | "list" => some history
  | "clear_history" => some clearHistory
  | "goto" => some goto
  | "install" => some install
  | "uninstall" => some uninstall
  | "update" => some update
  | "install_list" => some installList
  | "setup" => some setup
  | "load" => some load
  | "save" => some save
  | "exec" => some exec
  | "eval" => some eval
  | "reset" => some reset
  | "info" => some info
  | "tutorial" => some tutorial
  | "examples" => some examples
  | "search_history" => some searchHistory
  | "export_vars" => some exportVars
  | "import_code" => some importCode
  | "run_tests" => some runTests
  | "stats" => some stats
  | "config" => some config
  | "time_exec" => some timeExec
  | "benchmark" => some benchmark
  | _ => none

namespace Dialog

variable [Limits]

def versionText : String := "1.0"

/-! ### History -/

def lastOf (limit : Nat) (entries : List String) : List String :=
  entries.drop (entries.length - limit)

def showHistory : Dialog Unit := do
  let terminal ← get
  ((lastOf 20 terminal.history.toList).zipIdx 1).forM fun (entry, index) =>
    say (toString index ++ ": " ++ Text.quoted entry)

def searchHistory (arguments : List String) : Dialog Unit := do
  match arguments with
  | part :: _ =>
    let terminal ← get
    (lastOf 10 (terminal.history.toList.filter (Text.occursIn part))).forM fun entry =>
      say (Text.quoted entry)
  | [] => say "Usage: :search_history <query>"

/-! ### Files -/

/-- Changes the working folder, which must still be there. Slashes in the path are taken for
backslashes. -/
def goto (arguments : List String) : Dialog Unit := do
  match arguments with
  | path :: _ =>
    let terminal ← get
    if terminal.files.whereabouts?.isNone then
      say ("Error changing directory: " ++ FileTree.goneText)
    else
      match terminal.files.enter (backslashed path) with
      | .ok files =>
        set { terminal with files := files }
        say ("Changed directory to: " ++ files.hereText)
      | .error ⟨.zeroCharacter, path⟩ => throw (.path ⟨.zeroCharacter, path⟩)
      | .error fault => say ("Error changing directory: " ++ fault.message)
  | [] => say "Usage: :goto <path>"

/-- Runs `action`; a fault that escapes from it is reported. -/
def reportingEscape (intro : String) (action : Dialog Unit) : Dialog Unit :=
  ExceptT.mk fun terminal =>
    match action.run.run terminal with
    | (.error (.fault cause), after) => (say (intro ++ cause.message)).run.run after
    | (.error (.path cause), after) => (say (intro ++ cause.message)).run.run after
    | other => other

def load (arguments : List String) : Dialog Unit := do
  match arguments with
  | name :: _ =>
    let terminal ← get
    match terminal.files.readText name with
    | .error (.path ⟨.missing, _⟩) => say ("File " ++ name ++ " not found.")
    | .error fault => say ("Load error: " ++ fault.message)
    | .ok code =>
      reportingEscape "Load error: " do
        feed code
        say ("Loaded and executed " ++ name)
  | [] => say "Usage: :load <filename>"

/-- Writes words to a file, whose name comes last. -/
def save (arguments : List String) : Dialog Unit := do
  if arguments.length < 2 then say "Usage: :save <code> <filename>"
  else
    let name := arguments.getLastD ""
    let terminal ← get
    match terminal.files.writeText name (Text.unwords arguments.dropLast) with
    | .ok files =>
      set { terminal with files := files }
      say ("Saved to " ++ name)
    | .error fault => say ("Save error: " ++ fault.message)

/-! ### Time -/

def elapsedText (start stop : Number.Binary64) : String :=
  (stop.sub start).placesText 4

def timedFeed (code : String) : Dialog Unit := do
  let start ← time
  feed code
  let stop ← time
  say ("Executed in " ++ elapsedText start stop ++ " seconds")

def feedTimes (code : String) : Nat → Dialog Unit
  | 0 => return
  | left + 1 => do
    feed code
    feedTimes code left

/-- Takes one and the same text of an entry a thousand times, or as often as is asked for. -/
def benchmark (arguments : List String) : Dialog Unit := do
  let times ← match arguments with
    | [] => pure 1000
    | numeral :: _ =>
      match Number.readInteger numeral with
      | .ok times => pure times
      | .error fault => throw (.fault (.numeral fault))
  let start ← time
  feedTimes "local x = 1 + 1" times.toNat
  let stop ← time
  say ("Benchmark: " ++ toString times ++ " operations in " ++ elapsedText start stop
    ++ " seconds")

/-! ### All commands -/

def perform (command : Command) (arguments : List String) : Dialog Unit := do
  match command with
  | .help => say Terminal.helpText
  | .quit =>
    say "Goodbye!"
    throw .quit
  | .version => say ("FFling Terminal v" ++ versionText)
  | .history => showHistory
  | .clearHistory =>
    modify fun terminal => { terminal with history := #[] }
    say "History cleared."
  | .goto => goto arguments
  | .install => install arguments
  | .uninstall => uninstall arguments
  | .update => update arguments
  | .installList => listPackages
  | .setup => setup arguments
  | .load => load arguments
  | .save => save arguments
  | .exec =>
    if arguments.isEmpty then say "Usage: :exec <code>" else feed (Text.unwords arguments)
  | .eval =>
    if arguments.isEmpty then say "Usage: :eval <expression>"
    else feed ("printline(" ++ Text.unwords arguments ++ ")")
  | .reset =>
    modify fun terminal =>
      { terminal with
        machine := .new terminal.machine.console
        pending := ""
        continued := false }
    say "Interpreter reset."
  | .info =>
    let terminal ← get
    say "FFling Terminal Info:"
    say ("Version: " ++ versionText)
    say ("History size: " ++ toString terminal.history.size)
    say "Built-in libraries: time (time_time, time_sleep)"
    say "Keywords: 30+"
  | .tutorial =>
    say ((Terminal.tutorialText? (arguments.headD "intro")).getD "Tutorial not found.")
  | .examples =>
    say ((Terminal.examplesText? (arguments.headD "basic")).getD "Examples not found.")
  | .searchHistory => searchHistory arguments
  | .exportVars =>
    match arguments with
    | name :: _ => say ("Export vars to " ++ name)
    | [] => say "Usage: :export_vars <file>"
  | .importCode =>
    if arguments.isEmpty then say "Usage: :import_code <file>" else load arguments
  | .runTests =>
    say "Running tests..."
    feed "printline(\"Test passed\")"
    say "Tests completed."
  | .stats =>
    let terminal ← get
    say ("Session stats: " ++ toString terminal.history.size ++ " commands executed.")
  | .config =>
    match arguments with
    | key :: first :: others =>
      say ("Set " ++ key ++ " to " ++ Text.unwords (first :: others))
    | _ => say "Usage: :config <key> <value>"
  | .timeExec =>
    if arguments.isEmpty then say "Usage: :time_exec <code>"
    else timedFeed (Text.unwords arguments)
  | .benchmark => benchmark arguments

/-- Carries a command line out. Nothing happens for a blank one. -/
def command (line : String) : Dialog Unit := do
  match Text.words line with
  | [] => return
  | word :: arguments =>
    let lowered := Text.lower word
    match Command.ofWord? lowered with
    | some command => perform command arguments
    | none =>
      say ("Unknown command: " ++ lowered ++ ". Type :help for available commands.")

end Dialog

end IndentScript
