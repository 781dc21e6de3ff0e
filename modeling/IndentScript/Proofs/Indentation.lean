import IndentScript.Proofs.Concatenation
import IndentScript.Proofs.OuterBlanks

/-!
The blanks with which a line starts. The indentation is what stands before the first tab. A tab and
the blanks behind it are no part of it, and like all blanks between tokens they are passed over. So a
tab takes away from the width of a line and does nothing else: whether a source text can be cut up
is decided by what its lines show behind all their blanks.
-/

namespace IndentScript

namespace Lexing

/-! ### The width of a line -/

/-- The indentation holds blanks, but no tab. -/
theorem isBlank_of_mem_take {row : List Char} {c : Char} (member : c ∈ row.take (indentation row)) :
    Text.isBlank c = true ∧ c ≠ '\t' := by
  have front := List.prefix_iff_eq_take.mp
    (List.takeWhile_prefix (fun c => Text.isBlank c && c ≠ '\t') (l := row))
  have kept := List.mem_takeWhile_imp (front ▸ member)
  simpa using kept

theorem indentation_append {front back : List Char}
    (blank : ∀ c ∈ front, Text.isBlank c = true ∧ c ≠ '\t') (margin : indentation back = 0) :
    indentation (front ++ back) = front.length := by
  have kept : ∀ c ∈ front, (Text.isBlank c && decide (c ≠ '\t')) = true := by
    intro c member
    simpa using blank c member
  rw [indentation] at margin ⊢
  rw [List.takeWhile_append_of_pos kept, List.length_append, margin, Nat.add_zero]

/-- Behind the indentation of a line there is no more of it. -/
theorem indentation_drop (row : List Char) : indentation (row.drop (indentation row)) = 0 := by
  have dropped : row.drop (indentation row) =
      row.dropWhile fun c => Text.isBlank c && c ≠ '\t' := by
    have whole := List.takeWhile_append_dropWhile (p := fun c => Text.isBlank c && c ≠ '\t')
      (l := row)
    calc row.drop (indentation row)
        = (row.takeWhile (fun c => Text.isBlank c && c ≠ '\t') ++
            row.dropWhile fun c => Text.isBlank c && c ≠ '\t').drop (indentation row) := by rw [whole]
      _ = row.dropWhile fun c => Text.isBlank c && c ≠ '\t' := List.drop_left' rfl
  rw [dropped, indentation, List.length_eq_zero_iff, List.takeWhile_eq_nil_iff]
  intro inside
  have stopped := List.dropWhile_get_zero_not (fun c => Text.isBlank c && c ≠ '\t') row inside
  simpa using stopped

/-! ### Lines without a fault -/

def Clean (row : List Char) : Prop :=
  (scan 1 (row.dropWhile Text.isBlank)).2 = none

theorem scan_dropWhile (line : Nat) (characters : List Char) :
    scan line (characters.dropWhile Text.isBlank) = scan line characters := by
  have blank : ∀ c ∈ characters.takeWhile Text.isBlank, Text.isBlank c = true :=
    fun c member => List.mem_takeWhile_imp member
  have passed := scan_blanks_append blank line (characters.dropWhile Text.isBlank)
  rw [List.takeWhile_append_dropWhile] at passed
  exact passed.symm

/-- Behind the indentation of a line the same is found as behind all the blanks at its start. -/
theorem scan_drop_indentation (line : Nat) (row : List Char) :
    scan line (row.drop (indentation row)) = scan line (row.dropWhile Text.isBlank) := by
  have blank : ∀ c ∈ row.take (indentation row), Text.isBlank c = true :=
    fun c member => (isBlank_of_mem_take member).1
  have passed := scan_blanks_append blank line (row.drop (indentation row))
  rw [List.take_append_drop] at passed
  rw [scan_dropWhile, passed]

theorem clean_iff {row : List Char} (line : Nat) :
    Clean row ↔ (scan line (row.drop (indentation row))).2 = none := by
  rw [scan_drop_indentation]
  constructor
  · intro noFault
    exact (scan_alike noFault line).1
  · intro noFault
    exact (scan_alike noFault 1).1

theorem cut_cons_of_clean {row : List Char} (clean : Clean row) (line next : Nat)
    (widths : List Nat) (rows : List (List Char)) :
    (cut line next widths (row :: rows)).tokens =
      (layout next (indentation row) widths).1 ++ (scan next (row.drop (indentation row))).1 ++
        (cut next (next + 1) (layout next (indentation row) widths).2 rows).tokens := by
  rw [cut]
  dsimp only
  rw [(clean_iff next).mp clean]

theorem reach_fault_eq_none_iff {line next : Nat} {widths : List Nat} {rows : List (List Char)} :
    (reach line next widths rows).fault = none ↔ ∀ row ∈ rows, Clean row := by
  induction rows generalizing line next widths with
  | nil => simp [reach]
  | cons row rows ih =>
      rw [List.forall_mem_cons, clean_iff next, reach]
      dsimp only
      cases (scan next (row.drop (indentation row))).2 with
      | some fault => simp
      | none => simpa using ih

/-- Whether there is a fault depends on the lines alone. -/
theorem cut_fault_eq_none_iff {line next : Nat} {widths : List Nat} {rows : List (List Char)} :
    (cut line next widths rows).fault = none ↔ ∀ row ∈ rows, Clean row := by
  have passed := cut_append line next widths rows []
  have reached := @reach_fault_eq_none_iff line next widths rows
  rw [List.append_nil, Outcome.resume] at passed
  rw [passed, ← reached]
  cases faulty : (reach line next widths rows).fault with
  | some fault => simp [faulty]
  | none => simp [cut]

theorem cut_append_of_clean {front : List (List Char)} (clean : ∀ row ∈ front, Clean row)
    (line next : Nat) (widths : List Nat) (back : List (List Char)) :
    (cut line next widths (front ++ back)).tokens =
      (reach line next widths front).tokens ++
        (cut (reach line next widths front).line (next + front.length)
          (reach line next widths front).widths back).tokens := by
  rw [cut_append, Outcome.resume, reach_fault_eq_none_iff.mpr clean]

/-! ### Lines without the blanks behind the indentation -/

/-- The line with its indentation, but without the blanks from the first tab on that stand before
what it shows. -/
def untabbed (row : List Char) : List Char :=
  row.take (indentation row) ++ (row.drop (indentation row)).dropWhile Text.isBlank

theorem head?_dropWhile {p : Char → Bool} {characters : List Char} :
    ∀ c ∈ (characters.dropWhile p).head?, p c = false := by
  intro c first
  have stopped := List.head?_dropWhile_not p characters
  rw [Option.mem_def.mp first] at stopped
  simpa using stopped

theorem indentation_untabbed (row : List Char) : indentation (untabbed row) = indentation row := by
  rw [untabbed, indentation_append (fun c => isBlank_of_mem_take)
    (indentation_eq_zero head?_dropWhile), List.length_take_of_le]
  exact (List.takeWhile_prefix _).length_le

theorem scan_untabbed (line : Nat) (row : List Char) :
    scan line ((untabbed row).drop (indentation row)) = scan line (row.drop (indentation row)) := by
  have length : (row.take (indentation row)).length = indentation row :=
    List.length_take_of_le (List.takeWhile_prefix _).length_le
  rw [untabbed, List.drop_append_of_le_length (Nat.le_of_eq length.symm), List.drop_of_length_le
    (Nat.le_of_eq length), List.nil_append, scan_dropWhile]

theorem cut_untabbed (line next : Nat) (widths : List Nat) (rows : List (List Char)) :
    cut line next widths (rows.map untabbed) = cut line next widths rows := by
  induction rows generalizing line next widths with
  | nil => rfl
  | cons row rows ih =>
      rw [List.map_cons, cut, cut, indentation_untabbed, scan_untabbed]
      simp only [ih]

/-- A tab before what the line shows is gone. -/
theorem not_mem_takeWhile_untabbed (row : List Char) :
    '\t' ∉ (untabbed row).takeWhile Text.isBlank := by
  intro member
  rw [untabbed, List.takeWhile_append_of_pos fun c inFront => (isBlank_of_mem_take inFront).1]
    at member
  rcases List.mem_append.mp member with inFront | behind
  · exact (isBlank_of_mem_take inFront).2 rfl
  · cases rest : (row.drop (indentation row)).dropWhile Text.isBlank with
    | nil =>
        rw [rest] at behind
        cases behind
    | cons c others =>
        have visible : Text.isBlank c = false := head?_dropWhile c (by rw [rest]; rfl)
        rw [rest, List.takeWhile_cons, visible] at behind
        cases behind

end Lexing

theorem exists_tokenize_iff {source : String} :
    (∃ tokens, tokenize source = .ok tokens) ↔
      ∀ row ∈ Text.lines source.toList, Lexing.Clean row := by
  rw [← Lexing.cut_fault_eq_none_iff]
  constructor
  · rintro ⟨tokens, lexed⟩
    exact (tokenize_eq_ok_iff.mp lexed).1
  · intro noFault
    exact ⟨_, tokenize_eq_ok_iff.mpr ⟨noFault, rfl⟩⟩

/-- Tabs among the blanks at the start of a line. None is ever found in the indentation, as that ends
before the first of them. The tokens, stack and line numbers are those of the text in which no line
has a tab before what it shows. And whether there are tokens at all depends on what the lines show
behind their blanks. -/
theorem tabs_before_lines_passed_over (source : String) :
    (∀ row ∈ Text.lines source.toList, '\t' ∉ row.take (Lexing.indentation row)) ∧
      (∀ row ∈ (Text.lines source.toList).map Lexing.untabbed,
        '\t' ∉ row.takeWhile Text.isBlank) ∧
      Lexing.cut 1 1 [0] ((Text.lines source.toList).map Lexing.untabbed) =
        Lexing.cut 1 1 [0] (Text.lines source.toList) ∧
      ((∃ tokens, tokenize source = .ok tokens) ↔
        ∀ row ∈ Text.lines source.toList,
          (Lexing.scan 1 (row.dropWhile Text.isBlank)).2 = none) := by
  refine ⟨?_, ?_, Lexing.cut_untabbed 1 1 [0] _, exists_tokenize_iff⟩
  · intro row _ member
    exact (Lexing.isBlank_of_mem_take member).2 rfl
  · intro row member
    obtain ⟨original, _, rfl⟩ := List.mem_map.mp member
    exact Lexing.not_mem_takeWhile_untabbed original

/-- A line that starts with a tab is cut into tokens, at the margin. -/
theorem tokenize_tabbed_line :
    '\t' ∈ "\tprintline(1)".toList.takeWhile Text.isBlank ∧
      (Lexer.new "\tprintline(1)").tokenize.2 = none ∧
      (Lexer.new "\tprintline(1)").tokenize.1.tokens.map Token.kind =
        [.keyword .printlineWord, .symbol .openParen, .number, .symbol .closeParen,
          .endOfSource] := by
  decide +kernel

end IndentScript
