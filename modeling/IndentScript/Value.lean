import IndentScript.Limits
import IndentScript.Program
import IndentScript.Text.Content

/-!
Values: what expressions evaluate to. Functions and tables carry an identity, given when they are
made. Two functions are equal only if they are the same one; two tables need not be.
-/

namespace IndentScript

inductive Service where
  /-- Writes its arguments to the output. -/
  | print
  /-- Gives back its one argument. -/
  | range
  /-- Reads a line of the input. -/
  | readLine
  /-- Reads the clock. -/
  | clock
  /-- Lets time pass. -/
  | sleep
  deriving DecidableEq, Repr

inductive Value where
  | none
  | bool (value : Bool)
  | int (value : Int)
  | float (value : Number.Binary64)
  | text (content : Content)
  | table (identity : Nat) (entries : List (String × Value))
  | function (identity : Nat) (parameters : List String) (body : Block)
  | service (identity : Nat) (offered : Service)
  deriving Inhabited, Repr

/-- The type of a value. Services come in two types: those there from the start, and those of
a library. -/
inductive DataType where
  | none | bool | int | float | text | table | function | builtin | library
  deriving DecidableEq, Repr

def DataType.name : DataType → String
  | none => "NoneType"
  | bool => "bool"
  | int => "int"
  | float => "float"
  | text => "str"
  | table => "dict"
  | function => "FuncDef"
  | builtin => "function"
  | library => "FFLibilFun"

def Service.dataType : Service → DataType
  | print | range => .builtin
  | readLine | clock | sleep => .library

namespace Value

def dataType : Value → DataType
  | none => .none
  | bool _ => .bool
  | int _ => .int
  | float _ => .float
  | text _ => .text
  | table _ _ => .table
  | function _ _ _ => .function
  | service _ offered => offered.dataType

/-- Whether a value counts as true in a condition: zero, empty text, the empty table and nothing
do not. -/
def isTrue : Value → Bool
  | none => false
  | bool value => value
  | int value => value ≠ 0
  | float value => !value.isZero
  | text content => !content.isEmpty
  | table _ entries => !entries.isEmpty
  | function _ _ _ => true
  | service _ _ => true

def nestingLimit [Limits] : Nat := Limits.showing

/-- The integer that a value stands for; a truth value is one or zero. -/
def integer? : Value → Option Int
  | bool value => some (if value then 1 else 0)
  | int value => some value
  | _ => Option.none

mutual

def ofLiteral : Literal → Value
  | .none => none
  | .bool value => bool value
  | .int value => int value
  | .float value => float value
  | .text content => text (.plain content)
  | .table identity entries => table identity (ofLiteralEntries entries)

def ofLiteralEntries : List (String × Literal) → List (String × Value)
  | [] => []
  | (name, literal) :: rest => (name, ofLiteral literal) :: ofLiteralEntries rest

end

end Value

end IndentScript
