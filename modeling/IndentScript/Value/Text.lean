import IndentScript.Fault
import IndentScript.Number.Decimal

/-!
Texts of values. A text stands for itself, and inside a table it is quoted; all other values
look the same in both places. An integer with too many digits has no text, and neither have
tables that nest too deep.
-/

namespace IndentScript

namespace Value

def boolText (value : Bool) : String :=
  if value then "True" else "False"

def integerText (value : Int) : Except Fault String :=
  (Number.writeInteger value).mapError .numeral

def serviceText (identity : Nat) (type : DataType) : String :=
  match type with
  | .library => "<interpreter.FFLibilFun object at " ++ address identity ++ ">"
  | _ => "<function Interpreter.__init__.<locals>.<lambda> at " ++ address identity ++ ">"

def functionText (identity : Nat) : String :=
  "<interpreter.FuncDef object at " ++ address identity ++ ">"

mutual

def quotedWithin : Value → Nat → Except Fault String
  | none, _ => .ok "None"
  | bool value, _ => .ok (boolText value)
  | int value, _ => integerText value
  | float value, _ => .ok value.text
  | text content, _ => .ok content.quoted
  | table _ _, 0 => .error .tooDeep
  | table _ entries, depth + 1 => do
    let fields ← quotedEntries entries depth
    return "\x7b" ++ String.intercalate ", " fields ++ "\x7d"
  | function identity _ _, _ => .ok (functionText identity)
  | service identity offered, _ => .ok (serviceText identity offered.dataType)

def quotedEntries : List (String × Value) → Nat → Except Fault (List String)
  | [], _ => .ok []
  | (name, value) :: rest, depth => do
    let shown ← quotedWithin value depth
    let others ← quotedEntries rest depth
    return (Text.quoted name ++ ": " ++ shown) :: others

end

def quoted [Limits] (value : Value) : Except Fault String :=
  quotedWithin value nestingLimit

def shown [Limits] : Value → Except Fault Content
  | text content => .ok content
  | value => value.quoted.map .plain

end Value

end IndentScript
