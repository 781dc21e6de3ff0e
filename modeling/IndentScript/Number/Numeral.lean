import IndentScript.Text.Digit
import IndentScript.Text.Quoted

/-!
Decimal numerals of integers, read and written with a limit on their length.

A numeral may have a sign and single underscores between its digits, and its digits may be the
decimal digits of any script. Numerals of more than `digitLimit` digits are neither read nor
written; the length is judged before the characters behind the digits.
-/

namespace IndentScript.Number

def digitLimit : Nat := 4300

def shownLimit : Nat := 200

inductive NumeralFault where
  | notANumeral (text : String)
  | tooLongToRead (digits : Nat)
  | tooLongToWrite
  deriving DecidableEq, Repr

def NumeralFault.message : NumeralFault → String
  | .notANumeral text =>
    "invalid literal for int() with base 10: "
      ++ String.ofList ((Text.quoted text).toList.take shownLimit)
  | .tooLongToRead digits =>
    "Exceeds the limit (" ++ toString digitLimit
      ++ " digits) for integer string conversion: value has " ++ toString digits
      ++ " digits; use sys.set_int_max_str_digits() to increase the limit"
  | .tooLongToWrite =>
    "Exceeds the limit (" ++ toString digitLimit
      ++ " digits) for integer string conversion; "
      ++ "use sys.set_int_max_str_digits() to increase the limit"

/-- The digits at the start, each possibly after one underscore, and what follows them. There is
no answer when an underscore does not stand between two digits. -/
def leadingDigits : List Char → Option (List Nat × List Char)
  | [] => some ([], [])
  | '_' :: c :: rest =>
    match Text.decimalValue? c with
    | some digit => (leadingDigits rest).map fun (digits, others) => (digit :: digits, others)
    | none => none
  | c :: rest =>
    if c = '_' then none
    else
      match Text.decimalValue? c with
      | some digit => (leadingDigits rest).map fun (digits, others) => (digit :: digits, others)
      | none => some ([], c :: rest)

def ofDigits (digits : List Nat) : Nat :=
  digits.foldl (fun number digit => 10 * number + digit) 0

def readDigits (text : String) (characters : List Char) : Except NumeralFault Nat :=
  if characters.head? = some '_' then .error (.notANumeral text)
  else
    match leadingDigits characters with
    | none => .error (.notANumeral text)
    | some (digits, rest) =>
      if digitLimit < digits.length then .error (.tooLongToRead digits.length)
      else if digits.isEmpty || !rest.isEmpty then .error (.notANumeral text)
      else .ok (ofDigits digits)

def readInteger (text : String) : Except NumeralFault Int :=
  match text.toList with
  | '-' :: rest => (readDigits text rest).map fun magnitude => -(magnitude : Int)
  | '+' :: rest => (readDigits text rest).map Int.ofNat
  | characters => (readDigits text characters).map Int.ofNat

def writeInteger (n : Int) : Except NumeralFault String :=
  if Nat.pow 10 digitLimit ≤ n.natAbs then .error .tooLongToWrite
  else .ok (if n < 0 then "-" ++ toString n.natAbs else toString n.natAbs)

end IndentScript.Number
