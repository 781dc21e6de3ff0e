import IndentScript.Machine.Session
import IndentScript.Proofs.CharacterClasses
import IndentScript.Text.Words
import Mathlib.Data.List.TakeWhile

/-!
Blanks at the two ends of a line. Behind the last token they are passed over; before the first one
they are the indentation, as far as a tab does not end it. So the lines of a text can be trimmed
without an effect on what the text does, unless one of them is indented.
-/

namespace IndentScript

namespace Text

/-! ### Trimming -/

def trimStart (text : String) : String :=
  String.ofList (text.toList.dropWhile isBlank)

theorem trimStart_backslash (line : String) : trimStart (line ++ "\\") = trimStart line ++ "\\" := by
  have visible : isBlank '\\' = false := by decide
  apply String.toList_inj.mp
  rw [trimStart, trimStart, String.toList_append, String.toList_append,
    show "\\".toList = ['\\'] from rfl, String.toList_ofList, String.toList_ofList,
    List.dropWhile_append]
  split
  · rename_i blank
    rw [List.isEmpty_iff.mp blank]
    simp [visible]
  · rfl

theorem trim_backslash (line : String) : trim (line ++ "\\") = trimStart line ++ "\\" := by
  have visible : isBlank '\\' = false := by decide
  have start := congrArg String.toList (trimStart_backslash line)
  rw [trimStart, String.toList_ofList] at start
  rw [trim, start, String.toList_append]
  apply String.toList_inj.mp
  simp [visible]

theorem exists_blanks_trimStart (text : String) :
    ∃ front, (∀ c ∈ front, isBlank c = true) ∧ text.toList = front ++ (trimStart text).toList := by
  refine ⟨text.toList.takeWhile isBlank, fun c member => List.mem_takeWhile_imp member, ?_⟩
  rw [trimStart, String.toList_ofList, List.takeWhile_append_dropWhile]

/-- The trimmed text lacks the blanks at the end that the text without those at its start has. -/
theorem exists_trim_blanks (text : String) :
    ∃ back, (∀ c ∈ back, isBlank c = true) ∧ (trimStart text).toList = (trim text).toList ++ back := by
  let started := text.toList.dropWhile isBlank
  refine ⟨(started.reverse.takeWhile isBlank).reverse, ?_, ?_⟩
  · intro c member
    exact List.mem_takeWhile_imp (List.mem_reverse.mp member)
  · rw [trim, trimStart, String.toList_ofList, String.toList_ofList, ← List.reverse_append,
      List.takeWhile_append_dropWhile, List.reverse_reverse]

theorem getLast?_ne_of_trim {text : String} {c : Char} (visible : trim text ≠ "")
    (seen : isBlank c = false) (closes : (trim text).toList.getLast? ≠ some c) :
    text.toList.getLast? ≠ some c := by
  obtain ⟨front, _, start⟩ := exists_blanks_trimStart text
  obtain ⟨back, blank, ends⟩ := exists_trim_blanks text
  have full : (trim text).toList ≠ [] := by simpa using visible
  rw [start, ends, ← List.append_assoc]
  rcases List.eq_nil_or_concat back with rfl | ⟨others, d, rfl⟩
  · rw [List.append_nil, List.getLast?_append_of_ne_nil _ full]
    exact closes
  · rw [List.concat_eq_append, ← List.append_assoc, List.getLast?_concat]
    rintro ⟨rfl⟩
    rw [blank c (by simp)] at seen
    cases seen

theorem head?_trimStart (text : String) : ∀ c ∈ (trimStart text).toList.head?, isBlank c = false := by
  intro c first
  rw [trimStart, String.toList_ofList] at first
  have stopped := List.head?_dropWhile_not isBlank text.toList
  rw [first] at stopped
  simpa using stopped

/-! ### Lines put together -/

def joined : List String → String → String
  | [], last => last
  | line :: rest, last => line ++ "\n" ++ joined rest last

theorem joined_ne_empty (lines : List String) {last : String} (visible : last ≠ "") :
    joined lines last ≠ "" := by
  cases lines with
  | nil => exact visible
  | cons line rest => simp [joined]

theorem getLast?_joined (lines : List String) {last : String} (visible : last ≠ "") :
    (joined lines last).toList.getLast? = last.toList.getLast? := by
  induction lines with
  | nil => rfl
  | cons line rest ih =>
      have full : (joined rest last).toList ≠ [] := by
        simpa using joined_ne_empty rest visible
      rw [joined, String.toList_append, List.getLast?_append_of_ne_nil _ full, ih]

theorem lines_joined_rows {lines : List String} {last : String} (visible : last ≠ "")
    (unbroken : ∀ line ∈ last :: lines, ∀ c ∈ line.toList, isLineBreak c = false) :
    Text.lines (joined lines last).toList = lines.map String.toList ++ [last.toList] := by
  induction lines with
  | nil =>
      rw [joined]
      exact lines_unbroken (by simpa using visible) (unbroken last List.mem_cons_self)
  | cons line rest ih =>
      have others := ih fun other member => unbroken other (by grind)
      have feed : (line ++ "\n").toList ++ (joined rest last).toList =
          line.toList ++ '\n' :: (joined rest last).toList := by simp
      rw [joined, String.toList_append, feed,
        lines_append_lineFeed _ _ (unbroken line (by simp)), others]
      rfl

end Text

namespace Lexing

/-! ### Blanks behind the tokens -/

theorem quoted_append (back : List Char) {rest after : List Char} {quote : Char}
    (closed : rest.dropWhile (· ≠ '"') = quote :: after) :
    (rest ++ back).dropWhile (· ≠ '"') = quote :: (after ++ back) ∧
      (rest ++ back).takeWhile (· ≠ '"') = rest.takeWhile (· ≠ '"') := by
  have dropped : (rest ++ back).dropWhile (· ≠ '"') = quote :: (after ++ back) := by
    rw [List.dropWhile_append, closed]
    rfl
  have whole : (rest ++ back).takeWhile (· ≠ '"') ++ (rest ++ back).dropWhile (· ≠ '"') =
      rest.takeWhile (· ≠ '"') ++ rest.dropWhile (· ≠ '"') ++ back := by
    rw [List.takeWhile_append_dropWhile, List.takeWhile_append_dropWhile]
  rw [dropped, closed, List.append_assoc, List.cons_append] at whole
  exact ⟨dropped, List.append_cancel_right whole⟩

section

variable {back : List Char} (blank : ∀ c ∈ back, Text.isBlank c = true)

include blank

theorem takeWhile_append_blanks {p : Char → Bool} (sighted : ∀ c, p c = true → Text.isBlank c = false)
    (rest : List Char) : (rest ++ back).takeWhile p = rest.takeWhile p := by
  induction rest with
  | nil =>
      cases back with
      | nil => rfl
      | cons c back =>
          have unseen : ¬p c = true := by
            intro seen
            have first := blank c List.mem_cons_self
            rw [sighted c seen] at first
            cases first
          exact List.takeWhile_cons_of_neg unseen
  | cons c rest ih =>
      rw [List.cons_append, List.takeWhile_cons, List.takeWhile_cons, ih]

theorem dropWhile_append_blanks {p : Char → Bool} (sighted : ∀ c, p c = true → Text.isBlank c = false)
    (rest : List Char) : (rest ++ back).dropWhile p = rest.dropWhile p ++ back := by
  have whole : (rest ++ back).takeWhile p ++ (rest ++ back).dropWhile p =
      rest.takeWhile p ++ (rest.dropWhile p ++ back) := by
    rw [List.takeWhile_append_dropWhile, ← List.append_assoc, List.takeWhile_append_dropWhile]
  rw [takeWhile_append_blanks blank sighted] at whole
  exact List.append_cancel_left whole

theorem not_blank_of_mem {c d : Char} (member : c ∈ back) (visible : Text.isBlank d = false) :
    c ≠ d := by
  rintro rfl
  rw [blank c member] at visible
  cases visible

theorem unclosed_append_blanks {rest : List Char} (unclosed : rest.dropWhile (· ≠ '"') = []) :
    (rest ++ back).dropWhile (· ≠ '"') = [] := by
  rw [List.dropWhile_append, unclosed]
  apply List.dropWhile_eq_nil_iff.mpr
  intro c member
  exact decide_eq_true (not_blank_of_mem blank member (by decide))

theorem lexeme_append_blanks (line : Nat) (c : Char) (rest : List Char) :
    lexeme line c (rest ++ back) =
      (lexeme line c rest).map fun found => { found with rest := found.rest ++ back } := by
  -- A string takes blanks in until it is closed; a number or a word ends before them.
  unfold lexeme
  split
  · cases closed : rest.dropWhile (· ≠ '"') with
    | nil =>
        rw [unclosed_append_blanks blank closed]
        rfl
    | cons quote after =>
        obtain ⟨dropped, taken⟩ := quoted_append back closed
        rw [dropped, taken]
        rfl
  · split
    · have sighted : ∀ d, Text.isDigit d = true → Text.isBlank d = false :=
        fun _ => Text.isBlank_eq_false_of_isDigit
      dsimp only
      rw [takeWhile_append_blanks blank sighted, dropWhile_append_blanks blank sighted]
      split
      · rfl
      · rfl
    · split
      · have sighted : ∀ d, continuesWord d = true → Text.isBlank d = false :=
          fun _ => isBlank_eq_false_of_continuesWord
        rw [takeWhile_append_blanks blank sighted, dropWhile_append_blanks blank sighted]
        rfl
      · -- No blank makes a double sign of the last character.
        have sameHead : (rest ++ back).head? = some '=' ↔ rest.head? = some '=' := by
          cases rest with
          | nil =>
              constructor
              · intro first
                exact absurd rfl (not_blank_of_mem blank (List.mem_of_head? first) (by decide))
              · nofun
          | cons d rest => rfl
        simp only [sameHead]
        split
        · rename_i double
          obtain ⟨d, others, rfl⟩ := List.exists_cons_of_ne_nil (l := rest) (by rintro rfl; cases double.2)
          rfl
        · split
          · rfl
          · rfl

theorem scan_blanks (line : Nat) : scan line back = ([], none) := by
  induction back with
  | nil => rw [scan]
  | cons c back ih =>
      rw [scan, if_pos (blank c List.mem_cons_self)]
      exact ih fun d member => blank d (List.mem_cons_of_mem c member)

theorem scan_append_blanks (line : Nat) (characters : List Char) :
    scan line (characters ++ back) = scan line characters := by
  fun_induction scan line characters with
  | case1 => exact scan_blanks blank line
  | case2 c rest isBlank ih =>
      rw [List.cons_append, scan, if_pos isBlank]
      exact ih
  | case3 c rest visible fault failed =>
      have same := lexeme_append_blanks blank line c rest
      rw [failed] at same
      rw [List.cons_append, scan, if_neg visible]
      split
      · rename_i other failedToo
        rw [same] at failedToo
        cases failedToo
        rfl
      · rename_i found success
        rw [same] at success
        cases success
  | case4 c rest visible found success tokens fault scanned ih =>
      have same := lexeme_append_blanks blank line c rest
      rw [success] at same
      rw [List.cons_append, scan, if_neg visible]
      split
      · rename_i other failed
        rw [same] at failed
        cases failed
      · rename_i other successToo
        rw [same] at successToo
        cases successToo
        rw [ih, scanned]

theorem scan_blanks_append (line : Nat) (characters : List Char) :
    scan line (back ++ characters) = scan line characters := by
  induction back with
  | nil => rfl
  | cons c back ih =>
      rw [List.cons_append, scan, if_pos (blank c List.mem_cons_self)]
      exact ih fun d member => blank d (List.mem_cons_of_mem c member)

end

/-! ### Lines that are not indented -/

/-- The rows open no block and have the same tokens. -/
structure AlikeRows (row other : List Char) : Prop where
  margin : indentation row = 0
  otherMargin : indentation other = 0
  scan_eq : ∀ line, scan line row = scan line other

theorem indentation_eq_zero {row : List Char} (visible : ∀ c ∈ row.head?, Text.isBlank c = false) :
    indentation row = 0 := by
  cases row with
  | nil => rfl
  | cons c row =>
      rw [indentation, List.takeWhile_cons, visible c rfl]
      rfl

theorem cut_congr {rows others : List (List Char)} (alike : List.Forall₂ AlikeRows rows others)
    (line next : Nat) (widths : List Nat) : cut line next widths rows = cut line next widths others := by
  induction alike generalizing line next widths with
  | nil => rfl
  | cons first _ ih =>
      rw [cut, cut, first.margin, first.otherMargin, List.drop_zero, List.drop_zero, first.scan_eq]
      simp only [ih]

end Lexing

/-- The text is one line of a source text, and opens no block there. -/
structure Text.Unindented (line : String) : Prop where
  margin : Lexing.indentation line.toList = 0
  unbroken : ∀ c ∈ line.toList, Text.isLineBreak c = false

namespace Text.Unindented

theorem iff_all (line : String) :
    Unindented line ↔
      Lexing.indentation line.toList = 0 ∧ line.toList.all (!isLineBreak ·) = true := by
  simp only [List.all_eq_true, Bool.not_eq_true']
  constructor
  · intro unindented
    exact ⟨unindented.margin, unindented.unbroken⟩
  · intro conditions
    exact ⟨conditions.1, conditions.2⟩

instance : DecidablePred Unindented :=
  fun line => decidable_of_iff _ (iff_all line).symm

open Lexing

variable {line : String} (unindented : Unindented line)

include unindented

theorem alikeRows_trimStart : AlikeRows (trimStart line).toList line.toList where
  margin := indentation_eq_zero (head?_trimStart line)
  otherMargin := unindented.margin
  scan_eq := by
    intro number
    obtain ⟨front, blank, same⟩ := exists_blanks_trimStart line
    rw [same, scan_blanks_append blank]

theorem alikeRows_trim : AlikeRows (trim line).toList line.toList where
  margin := by
    obtain ⟨back, _, same⟩ := exists_trim_blanks line
    apply indentation_eq_zero
    intro c first
    apply head?_trimStart line
    rw [same, List.head?_append, first]
    rfl
  otherMargin := unindented.margin
  scan_eq := by
    intro number
    obtain ⟨back, blank, same⟩ := exists_trim_blanks line
    rw [← unindented.alikeRows_trimStart.scan_eq, same, scan_append_blanks blank]

theorem unbroken_trimStart : ∀ c ∈ (trimStart line).toList, isLineBreak c = false := by
  obtain ⟨front, _, same⟩ := exists_blanks_trimStart line
  intro c member
  apply unindented.unbroken
  rw [same]
  exact List.mem_append_right front member

theorem unbroken_trim : ∀ c ∈ (trim line).toList, isLineBreak c = false := by
  obtain ⟨back, _, same⟩ := exists_trim_blanks line
  intro c member
  apply unindented.unbroken_trimStart
  rw [same]
  exact List.mem_append_left back member

end Text.Unindented

/-- Lines that are not indented can be trimmed. -/
theorem compile_trimmed [Limits] {lines : List String} {last : String} (visible : Text.trim last ≠ "")
    (unindented : ∀ line ∈ last :: lines, Text.Unindented line) :
    compile (Text.joined (lines.map Text.trimStart) (Text.trim last)) =
      compile (Text.joined lines last) := by
  have lastVisible : last ≠ "" := by
    rintro rfl
    exact visible rfl
  have rows := Text.lines_joined_rows lastVisible fun line member => (unindented line member).unbroken
  have trimmedRows : Text.lines (Text.joined (lines.map Text.trimStart) (Text.trim last)).toList =
      (lines.map Text.trimStart).map String.toList ++ [(Text.trim last).toList] := by
    apply Text.lines_joined_rows visible
    intro line member
    rcases List.mem_cons.mp member with rfl | member
    · exact (unindented last List.mem_cons_self).unbroken_trim
    · obtain ⟨whole, isLine, rfl⟩ := List.mem_map.mp member
      exact (unindented whole (List.mem_cons_of_mem last isLine)).unbroken_trimStart
  have alike : List.Forall₂ Lexing.AlikeRows
      ((lines.map Text.trimStart).map String.toList ++ [(Text.trim last).toList])
      (lines.map String.toList ++ [last.toList]) := by
    apply List.rel_append
    · rw [List.map_map, List.forall₂_map_left_iff, List.forall₂_map_right_iff, List.forall₂_same]
      intro line member
      exact (unindented line (List.mem_cons_of_mem last member)).alikeRows_trimStart
    · exact .cons (unindented last List.mem_cons_self).alikeRows_trim .nil
  unfold compile tokenize Lexer.tokenize
  dsimp only [Lexer.new]
  rw [rows, trimmedRows, Lexing.cut_congr alike]

end IndentScript
