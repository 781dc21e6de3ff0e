import IndentScript.Number.Rounding

/-!
Binary floating point numbers of 64 bits, with exact arithmetic and one rounding.

The least positive number is one unit, and every finite number is a whole number of units. So
a finite number is held as a sign and a number of units, sums and remainders are sums and
remainders of integers, and an operation is its exact result rounded once by `ofRatio`.
Numbers keep 53 significant binary digits; a number with fewer than that is a multiple of one
unit.

A result that is not a number carries a payload. The arithmetic here gives every such result
the payload 0; whoever computes it may tell two of them apart by giving them payloads.
-/

namespace IndentScript.Number

inductive Binary64 where
  | nan (payload : Nat)
  | infinite (negative : Bool)
  | finite (negative : Bool) (units : Nat)
  deriving DecidableEq, Repr

namespace Binary64

def unitsPerOne : Nat := Nat.pow 2 1074

/-- The first number of units that is too large for a finite number. -/
def unitsLimit : Nat := Nat.pow 2 2098

/-- The number nearest to `num / den` units: 53 significant binary digits, an exact half to the
even neighbour, and infinite beyond the largest finite number. -/
def ofRatio (negative : Bool) (num den : Nat) : Binary64 :=
  let step := Nat.pow 2 ((num / den).log2 - 52)
  let units := roundQuotient num (den * step) * step
  if units < unitsLimit then finite negative units else infinite negative

def ofInt (n : Int) : Binary64 :=
  ofRatio (n < 0) (n.natAbs * unitsPerOne) 1

def ofQuotient (num den : Int) : Binary64 :=
  ofRatio (decide (num < 0) != decide (den < 0)) (num.natAbs * unitsPerOne) den.natAbs

def ofDecimal (negative : Bool) (digits : Nat) (exponent : Int) : Binary64 :=
  if 0 ≤ exponent then ofRatio negative (digits * Nat.pow 10 exponent.toNat * unitsPerOne) 1
  else ofRatio negative (digits * unitsPerOne) (Nat.pow 10 (-exponent).toNat)

def signedUnits (negative : Bool) (units : Nat) : Int :=
  if negative then -(units : Int) else units

def isZero : Binary64 → Bool
  | finite _ 0 => true
  | _ => false

/-- Whether the sign is set; a result that is not a number has none. -/
def isNegative : Binary64 → Bool
  | nan _ => false
  | infinite negative => negative
  | finite negative _ => negative

def negate : Binary64 → Binary64
  | nan payload => nan payload
  | infinite negative => infinite !negative
  | finite negative units => finite (!negative) units

/-- The sum. A sum of zero is positive unless both terms are negative. -/
def add : Binary64 → Binary64 → Binary64
  | nan _, _ => nan 0
  | _, nan _ => nan 0
  | infinite left, infinite right => if left = right then infinite left else nan 0
  | infinite left, finite _ _ => infinite left
  | finite _ _, infinite right => infinite right
  | finite left leftUnits, finite right rightUnits =>
    let sum := signedUnits left leftUnits + signedUnits right rightUnits
    if sum = 0 then finite (left && right) 0 else ofRatio (sum < 0) sum.natAbs 1

def sub (left right : Binary64) : Binary64 :=
  left.add right.negate

def mul (left right : Binary64) : Binary64 :=
  let negative := left.isNegative != right.isNegative
  match left, right with
  | nan _, _ => nan 0
  | _, nan _ => nan 0
  | infinite _, other => if other.isZero then nan 0 else infinite negative
  | other, infinite _ => if other.isZero then nan 0 else infinite negative
  | finite _ leftUnits, finite _ rightUnits =>
    ofRatio negative (leftUnits * rightUnits) unitsPerOne

/-- The quotient. A quotient by zero is infinite, or no number for zero by zero. -/
def div (left right : Binary64) : Binary64 :=
  let negative := left.isNegative != right.isNegative
  match left, right with
  | nan _, _ => nan 0
  | _, nan _ => nan 0
  | infinite _, infinite _ => nan 0
  | infinite _, finite _ _ => infinite negative
  | finite _ _, infinite _ => finite negative 0
  | finite _ leftUnits, finite _ rightUnits =>
    if rightUnits = 0 then (if leftUnits = 0 then nan 0 else infinite negative)
    else ofRatio negative (leftUnits * unitsPerOne) rightUnits

/-- The remainder of the division toward zero, with the sign of the dividend. -/
def remainder : Binary64 → Binary64 → Binary64
  | nan _, _ => nan 0
  | _, nan _ => nan 0
  | infinite _, _ => nan 0
  | finite negative units, infinite _ => finite negative units
  | finite negative units, finite _ divisor =>
    if divisor = 0 then nan 0 else finite negative (units % divisor)

/-- The remainder of the division toward the floor, with the sign of the divisor. -/
def floorRemainder (left right : Binary64) : Binary64 :=
  let rest := left.remainder right
  if rest.isZero then finite right.isNegative 0
  else if rest.isNegative != right.isNegative then rest.add right
  else rest

/-- How two numbers compare; a result that is not a number compares with nothing. -/
def order? : Binary64 → Binary64 → Option Ordering
  | nan _, _ => none
  | _, nan _ => none
  | infinite left, infinite right =>
    some (if left = right then .eq else if left then .lt else .gt)
  | infinite left, finite _ _ => some (if left then .lt else .gt)
  | finite _ _, infinite right => some (if right then .gt else .lt)
  | finite left leftUnits, finite right rightUnits =>
    some (compare (signedUnits left leftUnits) (signedUnits right rightUnits))

/-- How a number compares with an integer, without rounding the integer. -/
def orderInt? : Binary64 → Int → Option Ordering
  | nan _, _ => none
  | infinite negative, _ => some (if negative then .lt else .gt)
  | finite negative units, n => some (compare (signedUnits negative units) (n * unitsPerOne))

def truncate? : Binary64 → Option Int
  | finite negative units => some (signedUnits negative (units / unitsPerOne))
  | _ => none

end Binary64

end IndentScript.Number
