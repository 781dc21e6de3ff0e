/-!
Sets of characters given by intervals of code points. The tables of the sibling modules are
lists of such intervals; this module only says when a character lies in one of them.
-/

namespace IndentScript.Text

def inIntervals (intervals : List (Nat × Nat)) (c : Char) : Bool :=
  intervals.any fun interval => interval.1 ≤ c.toNat && c.toNat ≤ interval.2

/-- A character lies in a table exactly when one of its intervals holds the code point. -/
theorem inIntervals_eq_true_iff (intervals : List (Nat × Nat)) (c : Char) :
    inIntervals intervals c = true ↔
      ∃ interval ∈ intervals, interval.1 ≤ c.toNat ∧ c.toNat ≤ interval.2 := by
  simp [inIntervals]

end IndentScript.Text
