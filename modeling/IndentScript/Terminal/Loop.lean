import IndentScript.Terminal.Command

/-!
The dialog at the prompt. Each line of the input is a command line if it starts with a colon,
and a text of an entry otherwise. The dialog ends with the input or at a command; nothing else
that happens ends it. A prompt that cannot be shown, because the working folder is gone, is reported
like other faults; as no line was read, the next prompt fails in the same way.
-/

namespace IndentScript

namespace Terminal

variable [Limits]

def greeting : String :=
  "FFling Terminal v" ++ Dialog.versionText ++ "\n"
    ++ "Type :help for commands or FFling code directly.\n"
    ++ "Type :quit to exit.\n\n"

/-- What is shown before a line is read: the working folder, which must be there, or a mark while
an entry is open. -/
def prompt? (terminal : Terminal) : Option String :=
  if terminal.continued then some "...   "
  else terminal.files.whereabouts?.map fun path =>
    "[" ++ String.ofList (path.toList.map fun c => if c = '\\' then '/' else c) ++ "]ffling> "

def interruptText : String := "\nUse :quit to exit.\n"

/-- Takes a line of the input and records it, unless an entry is open then. -/
def takeLine (line : String) : Dialog Unit := do
  let trimmed := Text.trim line
  match trimmed.toList with
  | ':' :: rest => Dialog.command (String.ofList rest)
  | _ => Dialog.feed trimmed
  if !(← get).continued then Dialog.record trimmed

inductive DialogEnd where
  | quit
  | unfinished
  deriving DecidableEq, Repr

def write (terminal : Terminal) (text : String) : Terminal :=
  terminal.withConsole (·.write text)

def faultText (message : String) : String :=
  "Error: " ++ message ++ "\n"

/-- Leads a dialog of at most `budget` prompts. -/
def talkWithin : Nat → Terminal → DialogEnd × Terminal
  | 0, terminal => (.unfinished, terminal)
  | budget + 1, terminal =>
    match terminal.prompt? with
    | none => talkWithin budget (terminal.write (faultText FileTree.goneText))
    | some shown =>
      let asked := terminal.write shown
      match asked.machine.console.input with
      | [] => (.quit, asked.write "Goodbye!\n")
      | line :: rest =>
        let ready := asked.withConsole fun console => { console with input := rest }
        match line with
        | none => talkWithin budget (ready.write interruptText)
        | some text =>
          match (takeLine text).run.run ready with
          | (.ok (), after) => talkWithin budget after
          | (.error .quit, after) => (.quit, after)
          | (.error .interrupt, after) => talkWithin budget (after.write interruptText)
          | (.error .unfinished, after) => (.unfinished, after)
          | (.error (.fault cause), after) =>
            talkWithin budget (after.write (faultText cause.message))
          | (.error (.path cause), after) =>
            talkWithin budget (after.write (faultText cause.message))

def talk (terminal : Terminal) : DialogEnd × Terminal :=
  talkWithin (terminal.machine.console.input.length + 1) (terminal.write greeting)

end Terminal

end IndentScript
