/-!
The quotient of two natural numbers, rounded to the nearest integer. A quotient halfway
between two integers goes to the even one.
-/

namespace IndentScript.Number

/-- The integer nearest to `num / den`, the even one of two equally near. -/
def roundQuotient (num den : Nat) : Nat :=
  let whole := num / den
  let rest := num % den
  if 2 * rest < den then whole
  else if den < 2 * rest then whole + 1
  else if whole % 2 = 0 then whole
  else whole + 1

/-- The rounded quotient is at most half a unit away from the exact one. -/
theorem roundQuotient_near (num den : Nat) (positive : 0 < den) :
    2 * (roundQuotient num den * den) ≤ 2 * num + den ∧
      2 * num ≤ 2 * (roundQuotient num den * den) + den := by
  have split := Nat.div_add_mod num den
  have small := Nat.mod_lt num positive
  have step : (num / den + 1) * den = den * (num / den) + den := by
    rw [Nat.add_mul, Nat.one_mul, Nat.mul_comm]
  have same : num / den * den = den * (num / den) := Nat.mul_comm _ _
  simp only [roundQuotient]
  split
  · rw [same]; omega
  · split
    · rw [step]; omega
    · split
      · rw [same]; omega
      · rw [step]; omega

end IndentScript.Number
