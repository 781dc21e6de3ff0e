import IndentScript.Number.Binary64
import IndentScript.Text.Repetition

/-!
Decimal writing of floating point numbers.

The shortest writing takes the fewest digits that read back as the same number, and of those
the nearest to it; an exact tie goes to the even last digit. It is positional from one ten
thousandth up to ten to the sixteenth and scientific beyond. The other writings have a given
number of places and round the exact value, a half to even. No number has digits behind the
place `exactPlaces`, so what is written behind it is zeros.
-/

namespace IndentScript.Number

def timesPowerOfTen (num den : Nat) (exponent : Int) : Nat × Nat :=
  if 0 ≤ exponent then (num * Nat.pow 10 exponent.toNat, den)
  else (num, den * Nat.pow 10 (-exponent).toNat)

/-- How often `num` has to be multiplied by ten to reach `den`, within `bound` steps. -/
def stepsToReach (den : Nat) : Nat → Nat → Nat
  | 0, _ => 0
  | bound + 1, num => if den ≤ num then 0 else stepsToReach den bound (num * 10) + 1

/-- The place of the decimal point of a positive ratio: the ratio is at least
`10 ^ (place - 1)` and less than `10 ^ place`. -/
def pointPlace (num den : Nat) : Int :=
  if den ≤ num then (Nat.toDigits 10 (num / den)).length
  else 1 - (stepsToReach den (den.log2 + 1) num : Int)

structure Decimal where
  digits : Nat
  exponent : Int
  deriving DecidableEq, Repr

/-- The interval of real numbers that round to one number, in quarter units; its ends belong to
it when the significand of the number is even. -/
structure RoundingInterval where
  low : Nat
  high : Nat
  closed : Bool

/-- The interval of a positive number of units. Below a power of two the neighbour is only half
as far away. -/
def roundingInterval (units : Nat) : RoundingInterval :=
  let step := Nat.pow 2 (units.log2 - 52)
  let below := if units = Nat.pow 2 52 * step ∧ 1 < step then step else 2 * step
  ⟨4 * units - below, 4 * units + 2 * step, units / step % 2 = 0⟩

def RoundingInterval.holds (interval : RoundingInterval) (scale : Int) (candidate : Nat) : Bool :=
  let (low, den) := timesPowerOfTen interval.low (4 * Binary64.unitsPerOne) scale
  let (high, _) := timesPowerOfTen interval.high (4 * Binary64.unitsPerOne) scale
  if interval.closed then low ≤ candidate * den && candidate * den ≤ high
  else low < candidate * den && candidate * den < high

/-- The first decimal number in the interval among those with `count`, `count + 1`, … digits,
within `bound` tries. -/
def shortestFrom (units : Nat) (interval : RoundingInterval) (place : Int) :
    Nat → Nat → Decimal
  | bound, count =>
    let scale := (count : Int) - place
    let (num, den) := timesPowerOfTen units Binary64.unitsPerOne scale
    let below := num / den
    let nearest := roundQuotient num den
    let further := if nearest = below then below + 1 else below
    if interval.holds scale nearest then ⟨nearest, -scale⟩
    else if interval.holds scale further then ⟨further, -scale⟩
    else
      match bound with
      | 0 => ⟨nearest, -scale⟩
      | bound + 1 => shortestFrom units interval place bound (count + 1)

/-- The shortest decimal number that reads back as a positive number of units; seventeen digits
always do. -/
def shortestDecimal (units : Nat) : Decimal :=
  shortestFrom units (roundingInterval units) (pointPlace units Binary64.unitsPerOne) 16 1

def withoutTrailingZeros (digits : List Char) : List Char :=
  (digits.reverse.dropWhile (· = '0')).reverse

def exponentText (exponent : Int) : List Char :=
  let digits := Nat.toDigits 10 exponent.natAbs
  (if exponent < 0 then '-' else '+') :: (List.replicate (2 - digits.length) '0' ++ digits)

/-- The number of places that no number goes beyond: behind the point, or behind its first
digit. -/
def exactPlaces : Nat := 1074

/-- Scientific writing of digits, the first of which stands before the point, and of further
zeros. The point is left out when nothing follows it, unless `keepPoint` asks for it. -/
def scientific (digits : List Char) (zeros : Nat) (exponent : Int) (keepPoint : Bool) : String :=
  String.ofList (digits.take 1
      ++ if digits.length ≤ 1 && !keepPoint then [] else '.' :: digits.drop 1)
    ++ Text.repeated zeros "0" ++ String.ofList ('e' :: exponentText exponent)

/-- The first place of the decimal point that is too far left to be written out. -/
def plainAbove : Int := -4

/-- The last place of the decimal point that is written out. -/
def plainUpTo : Int := 16

def shortestText (units : Nat) : String :=
  let decimal := shortestDecimal units
  let written := Nat.toDigits 10 decimal.digits
  let place : Int := written.length + decimal.exponent
  let digits := withoutTrailingZeros written
  if plainAbove < place ∧ place ≤ plainUpTo then
    String.ofList <|
      if place ≤ 0 then '0' :: '.' :: (List.replicate (-place).toNat '0' ++ digits)
      else if digits.length ≤ place.toNat then
        digits ++ List.replicate (place.toNat - digits.length) '0' ++ ['.', '0']
      else digits.take place.toNat ++ '.' :: digits.drop place.toNat
  else scientific digits 0 (place - 1) false

/-- Positional writing of a number of units with the given number of places. The point is left
out when there are none, unless `keepPoint` asks for it. -/
def fixedText (places : Nat) (keepPoint : Bool) (units : Nat) : String :=
  let exact := min places exactPlaces
  let digits := Nat.toDigits 10 (roundQuotient (units * Nat.pow 10 exact) Binary64.unitsPerOne)
  let filled := List.replicate (exact + 1 - digits.length) '0' ++ digits
  let whole := filled.length - exact
  String.ofList (filled.take whole
      ++ if places = 0 && !keepPoint then [] else '.' :: filled.drop whole)
    ++ Text.repeated (places - exact) "0"

/-- The digits and the exponent of a number of units in scientific writing with `places` digits
after the first one. -/
def scientificDigits (places : Nat) (units : Nat) : List Char × Int :=
  if units = 0 then (List.replicate (places + 1) '0', 0)
  else
    let place := pointPlace units Binary64.unitsPerOne
    let (num, den) := timesPowerOfTen units Binary64.unitsPerOne ((places : Int) + 1 - place)
    let rounded := roundQuotient num den
    if rounded = Nat.pow 10 (places + 1) then (Nat.toDigits 10 (Nat.pow 10 places), place)
    else (Nat.toDigits 10 rounded, place - 1)

def scientificText (places : Nat) (keepPoint : Bool) (units : Nat) : String :=
  let exact := min places exactPlaces
  let (digits, exponent) := scientificDigits exact units
  scientific digits (places - exact) exponent keepPoint

/-- The writing of a number of units with `significant` digits, positional when the exponent is
at least minus four and less than the number of digits. Zeros at the end go unless `keepZeros`
asks for them. -/
def generalText (significant : Nat) (keepZeros : Bool) (units : Nat) : String :=
  let precision := if significant = 0 then 1 else significant
  let exact := min (precision - 1) exactPlaces
  let (digits, exponent) := scientificDigits exact units
  let kept := if keepZeros then digits else withoutTrailingZeros digits
  let shown := if kept.isEmpty then ['0'] else kept
  let zeros := if keepZeros then precision - 1 - exact else 0
  if -4 ≤ exponent ∧ exponent < precision then
    let positional :=
      if exponent < 0 then '0' :: '.' :: (List.replicate (-exponent - 1).toNat '0' ++ shown)
      else
        let whole := exponent.toNat + 1
        if shown.length ≤ whole then
          shown ++ List.replicate (whole - shown.length) '0' ++ (if keepZeros then ['.'] else [])
        else shown.take whole ++ '.' :: shown.drop whole
    String.ofList positional ++ Text.repeated zeros "0"
  else scientific shown zeros exponent keepZeros

def signed (negative : Bool) (digits : String) : String :=
  if negative then "-" ++ digits else digits

def Binary64.text : Binary64 → String
  | .nan _ => "nan"
  | .infinite negative => if negative then "-inf" else "inf"
  | .finite negative units => signed negative (if units = 0 then "0.0" else shortestText units)

def Binary64.placesText (places : Nat) : Binary64 → String
  | .finite negative units => signed negative (fixedText places false units)
  | other => other.text

end IndentScript.Number
