import IndentScript.Fault

/-!
Arithmetic on values: sums, differences, products, quotients and remainders of numbers, and
joining and repeating of texts.

A truth value is the integer one or zero. When one operand is a float the other one is made a
float first, and an integer too large for that is a fault, before anything else about the
operation is looked at. A quotient is always a float; a remainder has the sign of the divisor.
-/

namespace IndentScript

namespace Value

open Number (Binary64)

inductive Quantity where
  | whole (value : Int)
  | real (value : Binary64)

def quantity? : Value → Option Quantity
  | float value => some (.real value)
  | value => value.integer?.map .whole

def finite (fault : Fault) : Binary64 → Except Fault Binary64
  | .infinite _ => .error fault
  | value => .ok value

def floatOfInt (value : Int) : Except Fault Binary64 :=
  finite .integerToFloat (Binary64.ofInt value)

def Quantity.toFloat : Quantity → Except Fault Binary64
  | whole value => floatOfInt value
  | real value => .ok value

/-- Combines two numbers, by `wholes` if both are integers and by `reals` otherwise. -/
def combine (wholes : Int → Int → Except Fault Value)
    (reals : Binary64 → Binary64 → Except Fault Value) :
    Quantity → Quantity → Except Fault Value
  | .whole left, .whole right => wholes left right
  | left, right => do
    let leftFloat ← left.toFloat
    let rightFloat ← right.toFloat
    reals leftFloat rightFloat

def addNumbers : Quantity → Quantity → Except Fault Value :=
  combine (fun left right => .ok (int (left + right)))
    (fun left right => .ok (float (left.add right)))

def subNumbers : Quantity → Quantity → Except Fault Value :=
  combine (fun left right => .ok (int (left - right)))
    (fun left right => .ok (float (left.sub right)))

def mulNumbers : Quantity → Quantity → Except Fault Value :=
  combine (fun left right => .ok (int (left * right)))
    (fun left right => .ok (float (left.mul right)))

/-- The quotient of two integers, rounded once. -/
def divideIntegers (left right : Int) : Except Fault Value :=
  if right = 0 then .error (.zeroDivision .division)
  else (finite .quotientToFloat (Binary64.ofQuotient left right)).map float

def divNumbers : Quantity → Quantity → Except Fault Value :=
  combine divideIntegers fun left right =>
    if right.isZero then .error (.zeroDivision .floatDivision) else .ok (float (left.div right))

def modNumbers : Quantity → Quantity → Except Fault Value :=
  combine
    (fun left right =>
      if right = 0 then .error (.zeroDivision .remainder) else .ok (int (left.fmod right)))
    (fun left right =>
      if right.isZero then .error (.zeroDivision .floatRemainder)
      else .ok (float (left.floorRemainder right)))

def onNumbers (operator : String) (operation : Quantity → Quantity → Except Fault Value)
    (left right : Value) : Except Fault Value :=
  match left.quantity?, right.quantity? with
  | some leftNumber, some rightNumber => operation leftNumber rightNumber
  | _, _ => .error (.operands operator left.dataType right.dataType)

/-! ### Texts -/

/-- The largest count or length that can be asked for. -/
def largestIndex : Nat := Nat.pow 2 63 - 1

def memoryLimit : Nat := Nat.pow 2 31

def repeatText (content : Content) (count : Int) : Except Fault Content :=
  if count < -(largestIndex : Int) - 1 ∨ (largestIndex : Int) < count then .error .repetitionCount
  else if count ≤ 1 then .ok (if count = 1 then content else .plain "")
  else if content.length * count.toNat > largestIndex then .error .repetitionLength
  else if content.length * count.toNat > memoryLimit then .error .memory
  else if content.isEmpty then .ok content
  else .ok (content.repeated count.toNat)

def repeatBy (content : Content) (count : Value) : Except Fault Value :=
  match count.integer? with
  | some times => (repeatText content times).map text
  | Option.none => .error (.repeatedBy count.dataType)

/-! ### Operations on values -/

def add : Value → Value → Except Fault Value
  | text left, text right => .ok (text (left ++ right))
  | text _, right => .error (.joinedToText right.dataType)
  | left, right => onNumbers "+" addNumbers left right

def sub (left right : Value) : Except Fault Value :=
  onNumbers "-" subNumbers left right

def mul : Value → Value → Except Fault Value
  | text content, count => repeatBy content count
  | count, text content => repeatBy content count
  | left, right => onNumbers "*" mulNumbers left right

def div (left right : Value) : Except Fault Value :=
  onNumbers "/" divNumbers left right

def mod (left right : Value) : Except Fault Value :=
  onNumbers "%" modNumbers left right

end Value

end IndentScript
