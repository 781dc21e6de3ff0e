import IndentScript.Entries
import IndentScript.Number.Binary64
import IndentScript.Token

/-!
Programs: the statements and expressions that a token list is read into.

Three forms come from no source text and exist for programs built by hand: a literal that is no
number, text or truth value, an operator outside the ten of the language, and a node in a place
where it means nothing.
-/

namespace IndentScript

inductive Literal where
  | none
  | bool (value : Bool)
  | int (value : Int)
  | float (value : Number.Binary64)
  | text (content : String)
  | table (identity : Nat) (entries : List (String × Literal))
  deriving Inhabited, Repr

inductive Operator where
  | plus | minus | times | divide | percent | equals | greater | less | and | or
  | unknown (name : String)
  deriving DecidableEq, Repr

namespace Operator

def all : List Operator :=
  [plus, minus, times, divide, percent, equals, greater, less, and, or]

def kind : Operator → Kind
  | plus => .symbol .plus
  | minus => .symbol .minus
  | times => .symbol .times
  | divide => .symbol .slash
  | percent => .symbol .percent
  | equals => .symbol .equals
  | greater => .symbol .greater
  | less => .symbol .less
  | and => .keyword .andWord
  | or => .keyword .orWord
  | unknown name => .other name

def name (operator : Operator) : String :=
  operator.kind.name

def ofName (name : String) : Operator :=
  (all.find? fun operator => operator.name = name).getD (unknown name)

/-- The operators of the tighter level, all of equal strength. -/
def arithmetic? : Kind → Option Operator
  | .symbol .plus => some plus
  | .symbol .minus => some minus
  | .symbol .equals => some equals
  | .symbol .greater => some greater
  | .symbol .less => some less
  | .symbol .times => some times
  | .symbol .slash => some divide
  | .symbol .percent => some percent
  | _ => none

/-- The operators of the looser level, both of equal strength. -/
def logical? : Kind → Option Operator
  | .keyword .andWord => some and
  | .keyword .orWord => some or
  | _ => none

end Operator

inductive Expr where
  | literal (value : Literal)
  | variable (name : String)
  | binary (left : Expr) (operator : Operator) (right : Expr)
  | table (entries : List (String × Expr))
  | call (callee : String) (arguments : List Expr)
  /-- A node of the given sort where an expression should be. -/
  | misplaced (sort : String)
  /-- A node of the given sort where one with the given part should be. -/
  | lacking (sort part : String)
  deriving Inhabited, Repr

inductive Stmt where
  | print (arguments : List Expr)
  | assign (name : String) (value : Expr)
  /-- A condition with its block, further conditions with theirs, and a last block. -/
  | branch (condition : Expr) (body : List Stmt) (arms : List (Expr × List Stmt))
    (otherwise : Option (List Stmt))
  /-- Repeats a block with the variable counting up from zero. -/
  | count (name : String) (limit : Expr) (body : List Stmt)
  | loop (condition : Expr) (body : List Stmt)
  | leave
  | next
  | define (name : String) (parameters : List String) (body : List Stmt)
  | result (value : Option Expr)
  | load (library : String)
  | evaluate (value : Expr)
  deriving Inhabited, Repr

abbrev Block := List Stmt

structure Program where
  statements : Block
  deriving Repr

end IndentScript
