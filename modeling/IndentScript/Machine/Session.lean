import IndentScript.Machine.Evaluator
import IndentScript.Program.Parser
import IndentScript.Token.Lexer

/-!
Running source texts on a machine, one after another. What one text leaves behind, also when it
fails, is there for the next.
-/

namespace IndentScript

variable [Limits]

inductive Failure where
  | lexical (fault : LexicalFault)
  | syntactic (failure : ParseFailure)
  | stopped (stop : Stop)

namespace Failure

def message : Failure → Except Fault Content
  | .lexical fault => .ok (.plain fault.message)
  | .syntactic failure => .ok (.plain failure.message)
  | .stopped stop => stop.message

/-- Whether the failure is that the text is not well formed. Digits that make no numeral and a
text that nests too deep are not counted as that. -/
def isSyntactic : Failure → Bool
  | .lexical (.numeral _) => false
  | .lexical _ => true
  | .syntactic ⟨.expected _, _⟩ => true
  | .syntactic ⟨.expressionExpected, _⟩ => true
  | _ => false

end Failure

def compile (source : String) : Except Failure Program := do
  let tokens ← (tokenize source).mapError .lexical
  (parse tokens).mapError .syntactic

namespace Machine

def runProgramWithin (rounds depth : Nat) (program : Program) (machine : Machine) :
    Option Stop × Machine :=
  match (Run.programWithin rounds depth program).run.run machine with
  | (.ok (), after) => (none, after)
  | (.error stop, after) => (some stop, after)

def runProgram (program : Program) (machine : Machine) : Option Stop × Machine :=
  runProgramWithin Run.roundLimit Run.depthLimit program machine

def runSource (source : String) (machine : Machine) : Option Failure × Machine :=
  match compile source with
  | .error failure => (some failure, machine)
  | .ok program =>
    let (stop, after) := machine.runProgram program
    (stop.map .stopped, after)

end Machine

end IndentScript
