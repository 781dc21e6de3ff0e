import IndentScript.Text.Interval

/-!
Blanks and line breaks of the character database, version 14. Every line break is a blank, so
a break that is not taken off the end of a line is passed over like a space.
-/

namespace IndentScript.Text

/-- Blank characters: spaces of every width, tabs, line breaks and the separators of the
control block. -/
def blankIntervals : List (Nat × Nat) :=
  [(0x09, 0x0d), (0x1c, 0x20), (0x85, 0x85), (0xa0, 0xa0), (0x1680, 0x1680), (0x2000, 0x200a),
   (0x2028, 0x2029), (0x202f, 0x202f), (0x205f, 0x205f), (0x3000, 0x3000)]

def lineBreakIntervals : List (Nat × Nat) :=
  [(0x0a, 0x0d), (0x1c, 0x1e), (0x85, 0x85), (0x2028, 0x2029)]

def isBlank (c : Char) : Bool :=
  inIntervals blankIntervals c

def isLineBreak (c : Char) : Bool :=
  inIntervals lineBreakIntervals c

/-- Every line break is a blank. -/
theorem isBlank_of_isLineBreak {c : Char} (breaks : isLineBreak c = true) : isBlank c = true := by
  simp only [isLineBreak, isBlank, inIntervals, lineBreakIntervals, blankIntervals, List.any_cons,
    List.any_nil, Bool.or_false, Bool.or_eq_true, Bool.and_eq_true, decide_eq_true_eq] at breaks ⊢
  omega

end IndentScript.Text
