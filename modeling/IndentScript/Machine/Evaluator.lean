import IndentScript.Machine
import IndentScript.Value.Operation

/-!
Running programs.

Names are resolved when they are used: a function's body runs in a scope on top of those of its
caller. Each round of a loop has a scope of its own, so what a loop or a function assigns is
gone at its end. A branch has no scope of its own.

A run nests at most to a given depth, beyond which it is at fault. A loop with a condition goes
on for at most a given number of rounds, beyond which the run counts as unfinished.
-/

namespace IndentScript

namespace Run

variable [Limits]

/-! ### Pieces of control -/

/-- Gives a fresh payload to a float that is not a number, so that it differs from all others. -/
def distinguish (value : Value) : Run Value :=
  match value with
  | .float (.nan _) => do
    let identity ← newIdentity
    return .float (.nan identity)
  | other => return other

/-- Applies an operator. A value computed anew is told apart from others; one that is chosen
among the operands stays the same. -/
def operate (operator : Operator) (left right : Value) : Run Value := do
  let value ← ofExcept (operator.apply left right)
  match operator with
  | .and | .or => return value
  | _ => distinguish value

/-- Runs the block of the first condition that holds, or else the last block. -/
def chooseArm (test : Expr → Run Value) (run : Block → Run Unit) (otherwise : Block) :
    List (Expr × Block) → Run Unit
  | [] => run otherwise
  | (condition, body) :: rest => do
    let value ← test condition
    if value.isTrue then run body else chooseArm test run otherwise rest

/-- Runs the body of a loop once, in a scope of its own that starts with the given entries. The
answer says whether the loop goes on. -/
def round (entries : Entries Value) (body : Run Unit) : Run Bool := ExceptT.mk fun machine =>
  match (inScope entries body).run.run machine with
  | (.ok (), after) => (.ok true, after)
  | (.error .next, after) => (.ok true, after)
  | (.error .leave, after) => (.ok false, after)
  | (.error stop, after) => (.error stop, after)

def countUp (body : Nat → Run Bool) : Nat → Nat → Run Unit
  | _, 0 => return
  | start, left + 1 => do
    let goesOn ← body start
    if goesOn then countUp body (start + 1) left

def whileTrue (condition : Run Value) (body : Run Bool) : Nat → Run Unit
  | 0 => throw .unfinished
  | left + 1 => do
    let value ← condition
    if value.isTrue then
      let goesOn ← body
      if goesOn then whileTrue condition body left

/-- Runs the body of a function, whose value is that of the result that stops it. -/
def returning (body : Run Unit) : Run Value := ExceptT.mk fun machine =>
  match body.run.run machine with
  | (.ok (), after) => (.ok .none, after)
  | (.error (.result value), after) => (.ok value, after)
  | (.error stop, after) => (.error stop, after)

def runBlock (run : Stmt → Run Unit) (block : Block) : Run Unit :=
  block.forM run

/-- Calls the value of a name; the body of a function is run by `run`. -/
def callNamed (run : Stmt → Run Unit) (name : String) (value : Value) (arguments : List Value) :
    Run Value :=
  match value with
  | .function _ parameters body =>
    inScope (Entries.ofPairs (parameters.zip arguments)) (returning (runBlock run body))
  | .service _ service => perform service arguments
  | _ => fail (.nameNotCallable name)

/-- Prints by whatever the global name for printing stands for. -/
def printWith (value : Value) (arguments : List Value) : Run Unit :=
  match value with
  | .service _ service => discard (perform service arguments)
  | other => fail (.valueNotCallable other.dataType)

/-- Makes the names of a library known. Only one library has any. -/
def load (library : String) : Run Unit := do
  if library = "time" then
    let clock ← newIdentity
    assign "time_time" (.service clock .clock)
    let sleep ← newIdentity
    assign "time_sleep" (.service sleep .sleep)

/-! ### Expressions and statements -/

mutual

def evaluate (rounds : Nat) : Nat → Expr → Run Value
  | 0, _ => fail .tooDeep
  | depth + 1, expression =>
    match expression with
    | .literal value => return Value.ofLiteral value
    | .variable name => lookup name
    | .binary left operator right => do
      let leftValue ← evaluate rounds depth left
      let rightValue ← evaluate rounds depth right
      operate operator leftValue rightValue
    | .table entries => do
      let fields ← entries.mapM fun entry => do
        let value ← evaluate rounds depth entry.2
        return (entry.1, value)
      let identity ← newIdentity
      return .table identity fields
    | .call callee arguments => do
      let value ← lookup callee
      let values ← arguments.mapM (evaluate rounds depth)
      callNamed (execute rounds depth) callee value values
    | .misplaced sort => fail (.unknownExpression sort)
    | .lacking sort part => fail (.missingPart sort part)

def execute (rounds : Nat) : Nat → Stmt → Run Unit
  | 0, _ => fail .tooDeep
  | depth + 1, statement =>
    match statement with
    | .print arguments => do
      let values ← arguments.mapM (evaluate rounds depth)
      let printer ← lookupGlobal "printline"
      printWith printer values
    | .assign name value => do
      let result ← evaluate rounds depth value
      assign name result
    | .branch condition body arms otherwise =>
      chooseArm (evaluate rounds depth) (runBlock (execute rounds depth)) (otherwise.getD [])
        ((condition, body) :: arms)
    | .count name limit body => do
      let value ← evaluate rounds depth limit
      match value.integer? with
      | none => fail (.noInteger value.dataType)
      | some bound =>
        countUp (fun index => round [(name, .int index)] (runBlock (execute rounds depth) body)) 0
          bound.toNat
    | .loop condition body =>
      whileTrue (evaluate rounds depth condition)
        (round [] (runBlock (execute rounds depth) body)) rounds
    | .leave => throw .leave
    | .next => throw .next
    | .define name parameters body => do
      let identity ← newIdentity
      assign name (.function identity parameters body)
    | .result none => throw (.result .none)
    | .result (some value) => do
      let result ← evaluate rounds depth value
      throw (.result result)
    | .load library => load library
    | .evaluate value => discard (evaluate rounds depth value)

end

def depthLimit : Nat := Limits.running

def roundLimit : Nat := Limits.looping

def expression (value : Expr) : Run Value :=
  evaluate roundLimit depthLimit value

def programWithin (rounds depth : Nat) (program : Program) : Run Unit :=
  runBlock (execute rounds depth) program.statements

end Run

end IndentScript
