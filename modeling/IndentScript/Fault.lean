import IndentScript.Number.Numeral
import IndentScript.Value

/-!
Faults: what can go wrong when a program runs. A fault is a cause; its wording is
`Fault.message`.
-/

namespace IndentScript

inductive ZeroDivision where
  | division
  | floatDivision
  | remainder
  | floatRemainder
  deriving DecidableEq, Repr

def ZeroDivision.message : ZeroDivision → String
  | division => "division by zero"
  | floatDivision => "float division by zero"
  | remainder => "integer modulo by zero"
  | floatRemainder => "float modulo"

inductive TemplateFault where
  | tableNeeded
  | incompleteKey
  | unknownKey (key : Content)
  | tooFewArguments
  | unusedArgument
  | incompleteDirective
  | starNeedsInteger
  | starTooLargeForWidth
  | starTooLargeForPrecision
  | widthTooLarge
  | precisionTooLarge
  /-- A precision that is too large for the digits of an integer. -/
  | tooManyDigits
  | unknownConversion (conversion : CodePoint) (index : Nat)
  | integerNeeded (conversion : Char) (found : DataType)
  | wholeNumberNeeded (conversion : Char) (found : DataType)
  | numberNeeded (found : DataType)
  | characterNeeded
  | characterOutOfRange
  | integerOfInfinity
  | integerOfNoNumber
  deriving DecidableEq, Repr

/-- The wording of a template fault. A conversion is shown only if it is a character of the
visible ASCII range, or the one before it. -/
def TemplateFault.message : TemplateFault → String
  | tableNeeded => "format requires a mapping"
  | incompleteKey => "incomplete format key"
  | unknownKey key => key.quoted
  | tooFewArguments => "not enough arguments for format string"
  | unusedArgument => "not all arguments converted during string formatting"
  | incompleteDirective => "incomplete format"
  | starNeedsInteger => "* wants int"
  | starTooLargeForWidth => "Python int too large to convert to C ssize_t"
  | starTooLargeForPrecision => "Python int too large to convert to C int"
  | widthTooLarge => "width too big"
  | precisionTooLarge => "precision too big"
  | tooManyDigits => "precision too large"
  | unknownConversion conversion index =>
    let code := conversion.code
    let shown := if 31 ≤ code ∧ code ≤ 126 then Char.ofNat code else '?'
    "unsupported format character '" ++ String.singleton shown ++ "' (0x"
      ++ String.ofList (Text.hexadecimal 1 code) ++ ") at index " ++ toString index
  | integerNeeded conversion found =>
    "%" ++ String.singleton conversion ++ " format: an integer is required, not " ++ found.name
  | wholeNumberNeeded conversion found =>
    "%" ++ String.singleton conversion ++ " format: a real number is required, not " ++ found.name
  | numberNeeded found => "must be real number, not " ++ found.name
  | characterNeeded => "%c requires int or char"
  | characterOutOfRange => "%c arg not in range(0x110000)"
  | integerOfInfinity => "cannot convert float infinity to integer"
  | integerOfNoNumber => "cannot convert float NaN to integer"

inductive Fault where
  | undefinedVariable (name : String)
  /-- A name was called whose value is no function. -/
  | nameNotCallable (name : String)
  /-- The value that prints is no service. -/
  | valueNotCallable (found : DataType)
  | rangeArguments
  | unknownOperator (name : String)
  | unknownExpression (sort : String)
  | missingPart (sort part : String)
  | operands (operator : String) (left right : DataType)
  | unordered (operator : String) (left right : DataType)
  | joinedToText (right : DataType)
  | repeatedBy (count : DataType)
  | repetitionCount
  | repetitionLength
  | memory
  | zeroDivision (operation : ZeroDivision)
  | integerToFloat
  | quotientToFloat
  | noInteger (found : DataType)
  | negativeSleep
  | sleepNoNumber
  | sleepTooLong
  | sleepOutOfRange
  | endOfInput
  | numeral (fault : Number.NumeralFault)
  | template (fault : TemplateFault)
  | tooDeep
  deriving DecidableEq, Repr

/-- The place in memory that is shown for the object of the given identity. -/
def address (identity : Nat) : String :=
  "0x" ++ String.ofList (Text.hexadecimal 12 (0x7f0000000000 + 16 * identity))

namespace Fault

def message : Fault → String
  | undefinedVariable name => "Undefined variable " ++ name
  | nameNotCallable name => name ++ " is not callable"
  | valueNotCallable found => "'" ++ found.name ++ "' object is not callable"
  | rangeArguments => "range expects one argument"
  | unknownOperator name => "Unknown operator " ++ name
  | unknownExpression sort =>
    "Unknown expression <ast." ++ sort ++ " object at " ++ address 0 ++ ">"
  | missingPart sort part => "'" ++ sort ++ "' object has no attribute '" ++ part ++ "'"
  | operands operator left right =>
    "unsupported operand type(s) for " ++ operator ++ ": '" ++ left.name ++ "' and '"
      ++ right.name ++ "'"
  | unordered operator left right =>
    "'" ++ operator ++ "' not supported between instances of '" ++ left.name ++ "' and '"
      ++ right.name ++ "'"
  | joinedToText right => "can only concatenate str (not \"" ++ right.name ++ "\") to str"
  | repeatedBy count => "can't multiply sequence by non-int of type '" ++ count.name ++ "'"
  | repetitionCount => "cannot fit 'int' into an index-sized integer"
  | repetitionLength => "repeated string is too long"
  | memory => ""
  | zeroDivision operation => operation.message
  | integerToFloat => "int too large to convert to float"
  | quotientToFloat => "integer division result too large for a float"
  | noInteger found => "'" ++ found.name ++ "' object cannot be interpreted as an integer"
  | negativeSleep => "sleep length must be non-negative"
  | sleepNoNumber => "Invalid value NaN (not a number)"
  | sleepTooLong => "timestamp too large to convert to C _PyTime_t"
  | sleepOutOfRange => "timestamp out of range for platform time_t"
  | endOfInput => "EOF when reading a line"
  | numeral fault => fault.message
  | template fault => fault.message
  | tooDeep => "maximum recursion depth exceeded"

end Fault

end IndentScript
