/-!
The digits of a natural number in some base. Large numbers are cut in halves of digits until one
digit is left.
-/

namespace IndentScript.Number

/-- The `2 ^ level` lowest digits of a number, the highest first, in front of `rest`. -/
def lowDigits (base : Nat) : Nat → Nat → List Nat → List Nat
  | 0, number, rest => number % base :: rest
  | level + 1, number, rest =>
    let half := Nat.pow base (Nat.pow 2 level)
    lowDigits base level (number / half) (lowDigits base level (number % half) rest)

/-- The digits of a number, the highest first; zero has one digit. The base is at least two. -/
def digitsIn (base number : Nat) : List Nat :=
  let bound := number.log2 / base.log2 + 1
  match (lowDigits base (bound.log2 + 1) number []).dropWhile (· = 0) with
  | [] => [0]
  | digits => digits

def valueIn (base : Nat) (digits : List Nat) : Nat :=
  digits.foldl (fun number digit => base * number + digit) 0

def digitsText (base number : Nat) : List Char :=
  (digitsIn base number).map Nat.digitChar

def integerDigits (number : Int) : String :=
  let digits := String.ofList (digitsText 10 number.natAbs)
  if number < 0 then "-" ++ digits else digits

private theorem foldl_lowDigits (base : Nat) (level number start : Nat) (rest : List Nat) :
    (lowDigits base level number rest).foldl (fun number digit => base * number + digit) start =
      rest.foldl (fun number digit => base * number + digit)
        (Nat.pow base (Nat.pow 2 level) * start + number % Nat.pow base (Nat.pow 2 level)) := by
  induction level generalizing number start rest with
  | zero => simp [lowDigits]
  | succ level ih =>
    have square : Nat.pow base (Nat.pow 2 (level + 1)) =
        Nat.pow base (Nat.pow 2 level) * Nat.pow base (Nat.pow 2 level) := by
      simp only [Nat.pow_eq]
      rw [Nat.pow_succ, Nat.mul_two, Nat.pow_add]
    simp only [lowDigits, ih, square]
    congr 1
    rw [Nat.mod_mod, Nat.mod_mul, Nat.mul_add, Nat.mul_assoc]
    omega

/-- The lowest digits stand for what is left of the number by division. -/
theorem valueIn_lowDigits (base level number : Nat) :
    valueIn base (lowDigits base level number []) =
      number % Nat.pow base (Nat.pow 2 level) := by
  simp [valueIn, foldl_lowDigits]

private theorem valueIn_dropWhile_zero (base : Nat) (digits : List Nat) :
    valueIn base (digits.dropWhile (· = 0)) = valueIn base digits := by
  induction digits with
  | nil => rfl
  | cons digit rest ih =>
    by_cases zero : digit = 0
    · simpa [valueIn, zero] using ih
    · simp [zero]

private theorem lt_pow_of_digits {base : Nat} (proper : 2 ≤ base) (number : Nat) :
    number < Nat.pow base (Nat.pow 2 ((number.log2 / base.log2 + 1).log2 + 1)) := by
  have positive : 0 < base := Nat.lt_of_lt_of_le Nat.zero_lt_two proper
  have nonzero : base ≠ 0 := Nat.ne_of_gt positive
  have logPositive : 0 < base.log2 := (Nat.le_log2 nonzero).mpr (by simpa using proper)
  simp only [Nat.pow_eq]
  have enough : number.log2 + 1 ≤ base.log2 * (number.log2 / base.log2 + 1) := by
    have split := Nat.div_add_mod number.log2 base.log2
    have small := Nat.mod_lt number.log2 logPositive
    rw [Nat.mul_add, Nat.mul_one]
    omega
  refine Nat.lt_of_lt_of_le Nat.lt_log2_self ?_
  refine Nat.le_trans (Nat.pow_le_pow_right Nat.zero_lt_two enough) ?_
  rw [Nat.pow_mul]
  refine Nat.le_trans (Nat.pow_le_pow_left (Nat.log2_self_le nonzero) _) ?_
  exact Nat.pow_le_pow_right positive (Nat.le_of_lt Nat.lt_log2_self)

/-- The digits stand for the number. -/
theorem valueIn_digitsIn {base : Nat} (proper : 2 ≤ base) (number : Nat) :
    valueIn base (digitsIn base number) = number := by
  have value : valueIn base ((lowDigits base ((number.log2 / base.log2 + 1).log2 + 1) number
      []).dropWhile (· = 0)) = number := by
    rw [valueIn_dropWhile_zero, valueIn_lowDigits]
    exact Nat.mod_eq_of_lt (lt_pow_of_digits proper number)
  unfold digitsIn
  dsimp only
  split
  · rename_i none
    rw [none] at value
    exact value
  · exact value

end IndentScript.Number
