import IndentScript.FileTree
import IndentScript.Machine.Session

/-!
The terminal: a machine that is fed text by text, with a history, a file tree and a way to start
other programs.

A text that ends in a backslash is kept and goes in front of the next one. A text that does not
closes the entry, which is then run as a whole. Failures of a program are reported as text; an
interrupt from the keyboard goes on to whoever feeds the terminal.
-/

namespace IndentScript

inductive ProgramEnd where
  | success
  | failure
  /-- There is no such program. -/
  | notFound
  /-- The system does not start it. -/
  | refused (cause : PathFault)
  | interrupted
  deriving DecidableEq, Repr

/-- The start of another program: its name with its arguments, and the folder to start it in
when that is not the working folder. -/
structure ProgramStart where
  command : List String
  folder : Option String
  deriving DecidableEq, Repr

/-- What becomes of the last of the given starts: how the program ends, and what it makes of the
files that it finds. -/
abbrev ProgramEnds := Array ProgramStart → FileTree → ProgramEnd × FileTree

instance : Coe ProgramEnd ProgramEnds :=
  ⟨fun ending _ files => (ending, files)⟩

structure Terminal where
  machine : Machine
  history : Array String := #[]
  /-- The kept texts of an open entry, each with a line end. -/
  pending : String := ""
  /-- Whether an entry is open. -/
  continued : Bool := false
  files : FileTree
  /-- The programs started so far. -/
  started : Array ProgramStart := #[]
  programEnd : ProgramEnds := fun _ files => (.success, files)

inductive Escape where
  /-- The end of the dialog was asked for. -/
  | quit
  | interrupt
  | unfinished
  | fault (cause : Fault)
  | path (cause : PathFault)

abbrev Dialog := ExceptT Escape (StateM Terminal)

namespace Terminal

def new (console : Console) (files : FileTree) : Terminal :=
  { machine := .new console, files := files }

def withConsole (terminal : Terminal) (change : Console → Console) : Terminal :=
  { terminal with machine.console := change terminal.machine.console }

end Terminal

namespace Dialog

variable [Limits]

def write (text : Content) : Dialog Unit :=
  modify fun terminal => terminal.withConsole (·.write text)

def say (text : Content) : Dialog Unit :=
  write (text ++ .plain "\n")

def time : Dialog Number.Binary64 := do
  let terminal ← get
  let (now, console) := terminal.machine.console.look
  set (terminal.withConsole fun _ => console)
  return now

def record (entry : String) : Dialog Unit :=
  modify fun terminal => { terminal with history := terminal.history.push entry }

def report (failure : Failure) : Dialog Unit :=
  match failure with
  | .stopped .interrupt => throw .interrupt
  | .stopped .unfinished => throw .unfinished
  | other =>
    match other.message with
    | .ok message =>
      say (.plain (if other.isSyntactic then "Syntax Error: " else "Runtime Error: ") ++ message)
    | .error fault => throw (.fault fault)

def runEntry (code : String) : Dialog Unit := do
  let terminal ← get
  let (failure, machine) := terminal.machine.runSource code
  set { terminal with machine := machine }
  match failure with
  | none => pure ()
  | some failure => report failure
  record code

/-- Takes a text that belongs to an entry. Nothing happens for an empty one. -/
def feed (text : String) : Dialog Unit := do
  if text.isEmpty then return
  let terminal ← get
  if text.toList.getLast? = some '\\' then
    set { terminal with
      pending := terminal.pending ++ String.ofList text.toList.dropLast ++ "\n"
      continued := true }
  else
    set { terminal with pending := "", continued := false }
    runEntry (terminal.pending ++ text)

end Dialog

end IndentScript
