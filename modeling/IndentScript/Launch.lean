import IndentScript.FileTree
import IndentScript.Machine.Session

/-!
Launching the program of a file. There must be one argument, the path of the file. A wrong call
and a missing file are answered with a line of text; every other failure is handed on.
-/

namespace IndentScript

inductive LaunchFailure where
  /-- A line was written that says what is wrong. -/
  | refused
  | unreadable (fault : FileTree.ReadFault)
  | failed (failure : Failure)

namespace Launch

variable [Limits]

def usageText : String := "Kullanım: python main.py <ffling_dosya>\n"

def missingText (path : String) : String := "Dosya bulunamadı: " ++ path ++ "\n"

def launch (read : String → Except FileTree.ReadFault String) (arguments : List String)
    (console : Console) : Option LaunchFailure × Console :=
  match arguments with
  | [path] =>
    match read path with
    | .error (.path ⟨.missing, _⟩) => (some .refused, console.write (missingText path))
    | .error fault => (some (.unreadable fault), console)
    | .ok source =>
      let (failure, machine) := (Machine.new console).runSource source
      (failure.map .failed, machine.console)
  | _ => (some .refused, console.write usageText)

/-- Whether a source text can read from the input: only one name leads to it. -/
def readsInput (source : String) : Bool :=
  match tokenize source with
  | .ok tokens => tokens.any fun token => token.payload = .text "inputline"
  | .error _ => false

def failureText : LaunchFailure → String
  | .refused => ""
  | .unreadable fault => fault.message ++ "\n"
  | .failed failure =>
    match failure.message with
    | .ok message => message.displayed ++ "\n"
    | .error fault => fault.message ++ "\n"

end Launch

end IndentScript
