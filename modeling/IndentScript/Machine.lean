import IndentScript.Value.Comparison
import IndentScript.Value.Text

/-!
The machine that programs run on: scopes of variables, a console with input, output and a
clock, and a supply of identities.

A run may stop early. It then says why, and the machine keeps all changes made until then.

The output takes every code point, a lone surrogate like any other, so writing never fails. This is
an assumption on the console: a stream with a strict encoding would refuse such a text.

Scopes are held innermost first; the last one is the global scope. A name is looked up from the
innermost scope outward and always set in the innermost one.
-/

namespace IndentScript

open Number (Binary64)

variable [Limits]

/-- The outside world of a program: the lines still to be read, where a missing line stands for
an interrupt from the keyboard, the text written so far, and the time. -/
structure Console where
  input : List (Option String) := []
  output : Content := .plain ""
  clock : Binary64 := .ofInt 1000

namespace Console

def write (console : Console) (text : Content) : Console :=
  { console with output := console.output ++ text }

/-- What each look at the clock adds to it: a quarter of a second. -/
def tick : Binary64 := .ofQuotient 1 4

def wait (console : Console) (seconds : Binary64) : Console :=
  { console with clock := console.clock.add seconds }

def look (console : Console) : Binary64 × Console :=
  let after := console.wait tick
  (after.clock, after)

end Console

structure Machine where
  scopes : List (Entries Value)
  console : Console
  nextIdentity : Nat

inductive Stop where
  /-- The end of the innermost loop was asked for. -/
  | leave
  /-- The next round of the innermost loop was asked for. -/
  | next
  /-- The end of the function was asked for. -/
  | result (value : Value)
  | fault (cause : Fault)
  /-- The keyboard interrupted a read. -/
  | interrupt
  /-- A loop went on for more rounds than the run allows. -/
  | unfinished

/-- The wording of a stop. The value of a result may have no text, which is then a fault of its
own. -/
def Stop.message : Stop → Except Fault Content
  | .result value => value.shown
  | .fault cause => .ok (.plain cause.message)
  | _ => .ok (.plain "")

abbrev Run := ExceptT Stop (StateM Machine)

namespace Machine

/-- The services there from the start, with the identities they have. -/
def services : Entries Value :=
  [("printline", .service 0 .print), ("printlinef", .service 1 .print),
    ("range", .service 2 .range), ("inputline", .service 3 .readLine)]

def new (console : Console) : Machine :=
  ⟨[services], console, services.length⟩

def globals (machine : Machine) : Entries Value :=
  machine.scopes.getLast?.getD []

/-- Whether a name still has the service that it had at the start. -/
def isUntouched (name : String) (value : Value) : Bool :=
  match Entries.get? name services with
  | some initial => initial.equalsPlain value
  | none => false

end Machine

namespace Run

def fail (fault : Fault) : Run α :=
  throw (.fault fault)

def ofExcept (outcome : Except Fault α) : Run α :=
  match outcome with
  | .ok value => return value
  | .error fault => fail fault

/-! ### Variables -/

def find? (name : String) (scopes : List (Entries Value)) : Option Value :=
  scopes.findSome? (Entries.get? name)

def lookup (name : String) : Run Value := do
  let machine ← get
  match find? name machine.scopes with
  | some value => return value
  | none => fail (.undefinedVariable name)

def lookupGlobal (name : String) : Run Value := do
  let machine ← get
  match Entries.get? name machine.globals with
  | some value => return value
  | none => fail (.undefinedVariable name)

def assigned (name : String) (value : Value) : List (Entries Value) → List (Entries Value)
  | [] => []
  | scope :: outer => Entries.set name value scope :: outer

def assign (name : String) (value : Value) : Run Unit :=
  modify fun machine => { machine with scopes := assigned name value machine.scopes }

def inScope (entries : Entries Value) (body : Run α) : Run α := ExceptT.mk fun machine =>
  let (outcome, after) := body.run.run { machine with scopes := entries :: machine.scopes }
  (outcome, { after with scopes := after.scopes.drop 1 })

def newIdentity : Run Nat := do
  let machine ← get
  set { machine with nextIdentity := machine.nextIdentity + 1 }
  return machine.nextIdentity

/-! ### Console -/

def write (text : Content) : Run Unit :=
  modify fun machine => { machine with console := machine.console.write text }

def readLine : Run String := do
  let machine ← get
  match machine.console.input with
  | [] => fail .endOfInput
  | line :: rest =>
    set { machine with console.input := rest }
    match line with
    | some text => return text
    | none => throw .interrupt

def printValue (value : Value) : Run Unit := do
  let text ← ofExcept value.shown
  write (text ++ .plain " ")

def printLine (values : List Value) : Run Unit := do
  values.forM printValue
  write "\n"

/-! ### Time -/

def time : Run Binary64 := do
  let machine ← get
  let (now, console) := machine.console.look
  set { machine with console := console }
  return now

/-- The first number of nanoseconds that is too large. -/
def nanosecondLimit : Int := Nat.pow 2 63

/-- Checks the length of a sleep in seconds. A length that is too large is told apart by its
type. -/
def sleepLength (value : Value) : Except Fault Binary64 :=
  match value with
  | .float (.nan _) => .error .sleepNoNumber
  | .float seconds =>
    let nanoseconds := seconds.mul (.ofInt 1000000000)
    if nanoseconds.orderInt? nanosecondLimit ≠ some .lt
        ∨ nanoseconds.orderInt? (-nanosecondLimit) = some .lt then .error .sleepOutOfRange
    else if seconds.isNegative && !seconds.isZero then .error .negativeSleep
    else .ok seconds
  | other =>
    match other.integer? with
    | none => .error (.noInteger other.dataType)
    | some seconds =>
      if nanosecondLimit ≤ seconds * 1000000000 ∨ seconds * 1000000000 < -nanosecondLimit then
        .error .sleepTooLong
      else if seconds < 0 then .error .negativeSleep
      else .ok (.ofInt seconds)

def sleep (value : Value) : Run Unit := do
  let seconds ← ofExcept (sleepLength value)
  modify fun machine => { machine with console := machine.console.wait seconds }

/-! ### Services -/

def perform (service : Service) (arguments : List Value) : Run Value :=
  match service with
  | .print => do
    printLine arguments
    return .none
  | .range =>
    match arguments with
    | [value] => return value
    | _ => fail .rangeArguments
  | .readLine => do
    let text ← readLine
    return .text (.plain text)
  | .clock => do
    let now ← time
    return .float now
  | .sleep => do
    sleep (arguments.headD (.int 1))
    return .none

end Run

end IndentScript
