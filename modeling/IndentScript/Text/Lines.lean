import IndentScript.Text.Blank

/-!
Lines of a text, and the uniform line end of a text read from a file.

A line feed, a carriage return, or the two together end a line and do not belong to it. Any
other line break ends the line too but stays in it as its last character.
-/

namespace IndentScript.Text

/-- The lines of a text. A text that ends in a line break has no empty line after it. -/
def lines : List Char → List (List Char)
  | [] => []
  | '\r' :: '\n' :: rest => [] :: lines rest
  | c :: rest =>
    if c = '\n' ∨ c = '\r' then [] :: lines rest
    else if isLineBreak c then [c] :: lines rest
    else
      match lines rest with
      | [] => [[c]]
      | line :: others => (c :: line) :: others

theorem lines_cons_of_not_isLineBreak {c : Char} (noBreak : isLineBreak c = false)
    (rest : List Char) :
    lines (c :: rest) =
      match lines rest with
      | [] => [[c]]
      | line :: others => (c :: line) :: others := by
  have notFeed : c ≠ '\n' := by
    rintro rfl
    revert noBreak
    decide
  have notReturn : c ≠ '\r' := by
    rintro rfl
    revert noBreak
    decide
  rw [lines]
  · rw [if_neg (by simp [notFeed, notReturn]), noBreak, if_neg Bool.false_ne_true]
  · intro tail same _
    exact notReturn same

theorem lines_append_lineFeed (row rest : List Char)
    (unbroken : ∀ c ∈ row, isLineBreak c = false) :
    lines (row ++ '\n' :: rest) = row :: lines rest := by
  induction row with
  | nil => rw [List.nil_append, lines, if_pos (.inl rfl)]; simp
  | cons c row ih =>
      have others := ih fun d member => unbroken d (List.mem_cons_of_mem c member)
      rw [List.cons_append, lines_cons_of_not_isLineBreak (unbroken c List.mem_cons_self), others]

theorem lines_unbroken {row : List Char} (some : row ≠ [])
    (unbroken : ∀ c ∈ row, isLineBreak c = false) : lines row = [row] := by
  induction row with
  | nil => exact absurd rfl some
  | cons c row ih =>
      rw [lines_cons_of_not_isLineBreak (unbroken c List.mem_cons_self)]
      cases row with
      | nil => rw [lines]
      | cons d row =>
          rw [ih (List.cons_ne_nil d row) fun e member => unbroken e (List.mem_cons_of_mem c member)]

/-- The text with every carriage return, alone or before a line feed, read as a line feed. -/
def uniformLineEnds : List Char → List Char
  | [] => []
  | '\r' :: '\n' :: rest => '\n' :: uniformLineEnds rest
  | c :: rest => (if c = '\r' then '\n' else c) :: uniformLineEnds rest

end IndentScript.Text
