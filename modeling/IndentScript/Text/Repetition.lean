/-!
A text put several times in a row, made by doubling: half of the row is put twice.
-/

namespace IndentScript.Text

def repeated (count : Nat) (text : String) : String :=
  if count = 0 then ""
  else
    let half := repeated (count / 2) text
    if count % 2 = 0 then half ++ half else half ++ half ++ text
termination_by count
decreasing_by omega

/-- The characters of a row are those of the text, the same number of times. -/
theorem toList_repeated (count : Nat) (text : String) :
    (repeated count text).toList = (List.replicate count text.toList).flatten := by
  induction count using Nat.strongRecOn with
  | _ count ih =>
    unfold repeated
    by_cases zero : count = 0
    · simp [zero]
    · have half := ih (count / 2) (by omega)
      have double : ∀ n : Nat, (List.replicate (n + n) text.toList).flatten =
          (List.replicate n text.toList).flatten ++ (List.replicate n text.toList).flatten := by
        intro n
        rw [← List.replicate_append_replicate, List.flatten_append]
      by_cases even : count % 2 = 0
      · have same : count = count / 2 + count / 2 := by omega
        simp only [zero, even, if_false, if_true, String.toList_append, half]
        rw [← double, ← same]
      · have same : count = count / 2 + count / 2 + 1 := by omega
        simp only [zero, even, if_false, String.toList_append, half]
        rw [← double, ← List.flatten_concat, ← List.replicate_succ', ← same]

end IndentScript.Text
