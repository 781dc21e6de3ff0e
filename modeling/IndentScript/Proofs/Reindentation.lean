import IndentScript.Proofs.Indentation
import Mathlib.Order.Monotone.Basic

/-!
Source texts indented in another way. The indentation of every line can be replaced by one of
another width, as long as the margin stays where it is and wider lines stay wider. The stack of open
blocks then holds the new widths in place of the old ones, and no comparison comes out otherwise, so
that the text has the same tokens, and the same fault if it has one.
-/

namespace IndentScript

namespace Text

/-! ### Lines with their ends -/

/-- A line and the line end behind it, which the last line of a text can lack. -/
structure EndedLine where
  row : List Char
  ending : List Char

def endedLines : List Char → List EndedLine
  | [] => []
  | '\r' :: '\n' :: rest => ⟨[], ['\r', '\n']⟩ :: endedLines rest
  | c :: rest =>
    if c = '\n' ∨ c = '\r' then ⟨[], [c]⟩ :: endedLines rest
    else if isLineBreak c then ⟨[c], []⟩ :: endedLines rest
    else
      match endedLines rest with
      | [] => [⟨[c], []⟩]
      | line :: others => ⟨c :: line.row, line.ending⟩ :: others

def ofEndedLines (lines : List EndedLine) : List Char :=
  lines.flatMap fun line => line.row ++ line.ending

theorem ofEndedLines_cons (line : EndedLine) (others : List EndedLine) :
    ofEndedLines (line :: others) = line.row ++ (line.ending ++ ofEndedLines others) := by
  rw [ofEndedLines, List.flatMap_cons, List.append_assoc]
  rfl

/-- The text with every line changed by the function. The line ends stay as they are. -/
def mapLines (change : List Char → List Char) (text : List Char) : List Char :=
  ofEndedLines ((endedLines text).map fun line => ⟨change line.row, line.ending⟩)

theorem ofEndedLines_endedLines (text : List Char) : ofEndedLines (endedLines text) = text := by
  fun_induction endedLines text with
  | case1 => rfl
  | case2 rest ih => exact congrArg ('\r' :: '\n' :: ·) ih
  | case3 c rest notPair isEnd ih => exact congrArg (c :: ·) ih
  | case4 c rest notPair notEnd isBreak ih => exact congrArg (c :: ·) ih
  | case5 c rest notPair notEnd notBreak nothing ih =>
      rw [nothing] at ih
      rw [← ih]
      rfl
  | case6 c rest notPair notEnd notBreak line others same ih =>
      rw [same] at ih
      rw [← ih]
      rfl

/-- A line end before the given characters. A carriage return takes a line feed behind it along. -/
def IsEnding (ending rest : List Char) : Prop :=
  ending = ['\n'] ∨ ending = ['\r', '\n'] ∨ ending = ['\r'] ∧ rest.head? ≠ some '\n'

/-- Lines as they are found in a text whose only line breaks are line feeds and carriage returns. -/
inductive WellEnded : List EndedLine → Prop where
  | nil : WellEnded []
  | last {row : List Char} (nonempty : row ≠ []) (unbroken : ∀ c ∈ row, isLineBreak c = false) :
      WellEnded [⟨row, []⟩]
  | cons {row ending : List Char} {others : List EndedLine}
      (unbroken : ∀ c ∈ row, isLineBreak c = false) (ends : IsEnding ending (ofEndedLines others))
      (rest : WellEnded others) : WellEnded (⟨row, ending⟩ :: others)

theorem wellEnded_endedLines {text : List Char}
    (plain : ∀ c ∈ text, isLineBreak c = true → c = '\n' ∨ c = '\r') :
    WellEnded (endedLines text) := by
  fun_induction endedLines text with
  | case1 => exact .nil
  | case2 rest ih =>
      have others := ih fun c member => plain c (by simp [member])
      exact .cons (List.forall_mem_nil _) (.inr (.inl rfl)) others
  | case3 c rest notPair isEnd ih =>
      have others := ih fun d member => plain d (List.mem_cons_of_mem c member)
      refine .cons (List.forall_mem_nil _) ?_ others
      rcases isEnd with rfl | rfl
      · exact .inl rfl
      · refine .inr (.inr ⟨rfl, fun isFeed => ?_⟩)
        rw [ofEndedLines_endedLines] at isFeed
        obtain ⟨tail, split⟩ := List.head?_eq_some_iff.mp isFeed
        exact notPair tail rfl split
  | case4 c rest notPair notEnd isBreak ih =>
      exact absurd (plain c List.mem_cons_self isBreak) notEnd
  | case5 c rest notPair notEnd notBreak nothing ih =>
      exact .last (List.cons_ne_nil _ _)
        (List.forall_mem_singleton.mpr (Bool.not_eq_true _ ▸ notBreak))
  | case6 c rest notPair notEnd notBreak line others same ih =>
      have unbroken : isLineBreak c = false := by simpa using notBreak
      have rows := ih fun d member => plain d (List.mem_cons_of_mem c member)
      rw [same] at rows
      cases rows with
      | last nonempty noBreaks =>
          exact .last (List.cons_ne_nil _ _) (List.forall_mem_cons.mpr ⟨unbroken, noBreaks⟩)
      | cons noBreaks ends more =>
          exact .cons (List.forall_mem_cons.mpr ⟨unbroken, noBreaks⟩) ends more

/-- A row without breaks before a line end is a line. -/
theorem lines_append_ending {row ending rest : List Char}
    (unbroken : ∀ c ∈ row, isLineBreak c = false) (ends : IsEnding ending rest) :
    lines (row ++ (ending ++ rest)) = row :: lines rest := by
  induction row with
  | nil =>
      rcases ends with rfl | rfl | ⟨rfl, noFeed⟩
      · simp [lines]
      · simp [lines]
      · rw [List.nil_append, List.singleton_append, lines, if_pos (.inr rfl)]
        rintro tail _ rfl
        exact noFeed rfl
  | cons c row ih =>
      obtain ⟨first, others⟩ := List.forall_mem_cons.mp unbroken
      rw [List.cons_append, lines_cons_of_not_isLineBreak first, ih others]

theorem lines_ofEndedLines {ended : List EndedLine} (wellEnded : WellEnded ended) :
    lines (ofEndedLines ended) = ended.map EndedLine.row := by
  induction wellEnded with
  | nil => rw [ofEndedLines, List.flatMap_nil, lines, List.map_nil]
  | @last row nonempty unbroken =>
      have text : ofEndedLines [⟨row, []⟩] = row := by simp [ofEndedLines]
      rw [text, lines_unbroken nonempty unbroken]
      rfl
  | @cons row ending others unbroken ends _ ih =>
      rw [ofEndedLines_cons, lines_append_ending unbroken ends, ih, List.map_cons]

/-- A change of lines that makes no line breaks and leaves just the empty line empty. -/
structure KeepsLines (change : List Char → List Char) : Prop where
  unbroken : ∀ row, (∀ c ∈ row, isLineBreak c = false) → ∀ c ∈ change row, isLineBreak c = false
  nil_iff : ∀ row, change row = [] ↔ row = []

section

variable {change : List Char → List Char} (keeps : KeepsLines change)

include keeps

/-- A line that is not empty does not start with a line feed, changed or not. -/
theorem KeepsLines.head?_row_ne {row : List Char} (nonempty : row ≠ [])
    (unbroken : ∀ c ∈ row, isLineBreak c = false) (rest : List Char) :
    (change row ++ rest).head? ≠ some '\n' := by
  have noBreaks := keeps.unbroken row unbroken
  obtain ⟨c, more, same⟩ := List.exists_cons_of_ne_nil (mt (keeps.nil_iff row).mp nonempty)
  rw [same] at noBreaks ⊢
  rintro ⟨rfl⟩
  have noFeed := noBreaks '\n' List.mem_cons_self
  revert noFeed
  decide

theorem KeepsLines.head?_ne {ended : List EndedLine} (wellEnded : WellEnded ended)
    (noFeed : (ofEndedLines ended).head? ≠ some '\n') :
    (ofEndedLines (ended.map fun line => ⟨change line.row, line.ending⟩)).head? ≠ some '\n' := by
  cases wellEnded with
  | nil => exact noFeed
  | @last row nonempty unbroken =>
      rw [List.map_cons, ofEndedLines_cons]
      exact keeps.head?_row_ne nonempty unbroken _
  | @cons row ending others unbroken ends rest =>
      rw [List.map_cons, ofEndedLines_cons]
      rw [ofEndedLines_cons] at noFeed
      by_cases nonempty : row = []
      · -- The line end is at the start in both texts.
        obtain ⟨c, more, rfl⟩ : ∃ c more, ending = c :: more := by
          rcases ends with rfl | rfl | ⟨rfl, _⟩
          all_goals exact ⟨_, _, rfl⟩
        rw [nonempty] at noFeed ⊢
        rw [(keeps.nil_iff []).mpr rfl]
        exact noFeed
      · exact keeps.head?_row_ne nonempty unbroken _

theorem KeepsLines.wellEnded {ended : List EndedLine} (wellEnded : WellEnded ended) :
    WellEnded (ended.map fun line => ⟨change line.row, line.ending⟩) := by
  induction wellEnded with
  | nil => exact .nil
  | @last row nonempty unbroken =>
      exact .last (mt (keeps.nil_iff row).mp nonempty) (keeps.unbroken row unbroken)
  | @cons row ending others unbroken ends rest ih =>
      refine .cons (keeps.unbroken row unbroken) ?_ ih
      rcases ends with feed | pair | ⟨single, noFeed⟩
      · exact .inl feed
      · exact .inr (.inl pair)
      · exact .inr (.inr ⟨single, keeps.head?_ne rest noFeed⟩)

theorem KeepsLines.lines_mapLines {text : List Char}
    (plain : ∀ c ∈ text, isLineBreak c = true → c = '\n' ∨ c = '\r') :
    lines (mapLines change text) = (lines text).map change := by
  have wellEnded := wellEnded_endedLines plain
  have rows := lines_ofEndedLines wellEnded
  rw [ofEndedLines_endedLines] at rows
  rw [mapLines, lines_ofEndedLines (keeps.wellEnded wellEnded), rows, List.map_map, List.map_map]
  rfl

end

end Text

namespace Lexing

/-! ### Lines of another width -/

variable {widen : Nat → Nat}

def reindentedRow (widen : Nat → Nat) (row : List Char) : List Char :=
  List.replicate (widen (indentation row)) ' ' ++ row.drop (indentation row)

theorem indentation_reindentedRow (widen : Nat → Nat) (row : List Char) :
    indentation (reindentedRow widen row) = widen (indentation row) := by
  rw [reindentedRow, indentation_append _ (indentation_drop row), List.length_replicate]
  intro c member
  rw [List.eq_of_mem_replicate member]
  decide

theorem drop_reindentedRow (widen : Nat → Nat) (row : List Char) :
    (reindentedRow widen row).drop (widen (indentation row)) = row.drop (indentation row) :=
  List.drop_left' List.length_replicate

section

variable (increasing : StrictMono widen)

include increasing

theorem closeWider_map (width : Nat) (widths : List Nat) :
    closeWider (widen width) (widths.map widen) =
      ((closeWider width widths).1, (closeWider width widths).2.map widen) := by
  induction widths with
  | nil => rfl
  | cons top others ih =>
      rw [List.map_cons, closeWider, closeWider, ih]
      by_cases wider : width < top
      · rw [if_pos wider, if_pos (increasing wider)]
      · rw [if_neg wider, if_neg (mt increasing.lt_iff_lt.mp wider)]
        rfl

variable (margin : widen 0 = 0)

include margin

theorem layout_map (line width : Nat) (widths : List Nat) :
    layout line (widen width) (widths.map widen) =
      ((layout line width widths).1, (layout line width widths).2.map widen) := by
  have top : ((closeWider width widths).2.map widen).headD 0 =
      widen ((closeWider width widths).2.headD 0) := by
    cases (closeWider width widths).2 with
    | nil => exact margin.symm
    | cons top others => rfl
  unfold layout
  rw [closeWider_map increasing]
  dsimp only
  rw [top]
  by_cases wider : (closeWider width widths).2.headD 0 < width
  · rw [if_pos wider, if_pos (increasing wider)]
    rfl
  · rw [if_neg wider, if_neg (mt increasing.lt_iff_lt.mp wider)]

/-- The work on the lines of other widths goes the same way, with other widths on the stack. -/
theorem cut_map (line next : Nat) (widths : List Nat) (rows : List (List Char)) :
    cut line next (widths.map widen) (rows.map (reindentedRow widen)) =
      { cut line next widths rows with widths := (cut line next widths rows).widths.map widen } := by
  induction rows generalizing line next widths with
  | nil =>
      rw [List.map_nil, cut, cut, List.length_map, List.map_drop]
  | cons row rows ih =>
      -- Only the layout sees the width; the scan starts behind the indentation in both texts.
      rw [List.map_cons, cut, cut, indentation_reindentedRow, drop_reindentedRow,
        layout_map increasing margin]
      dsimp only
      cases (scan next (row.drop (indentation row))).2 with
      | some fault => rfl
      | none =>
          dsimp only
          rw [ih]

theorem keepsLines_reindentedRow : Text.KeepsLines (reindentedRow widen) where
  unbroken := by
    intro row unbroken c member
    rcases List.mem_append.mp member with space | kept
    · rw [List.eq_of_mem_replicate space]
      decide
    · exact unbroken c (List.mem_of_mem_drop kept)
  nil_iff := by
    intro row
    constructor
    · intro empty
      obtain ⟨noSpaces, dropped⟩ := List.append_eq_nil_iff.mp empty
      have atMargin : indentation row = 0 := by
        apply increasing.injective
        rw [margin]
        simpa using noSpaces
      rwa [atMargin] at dropped
    · rintro rfl
      change List.replicate (widen 0) ' ' ++ [] = []
      rw [margin]
      rfl

end

end Lexing

/-- The source text with the indentation of every line replaced by as many spaces as the function
says for its width. -/
def reindented (widen : Nat → Nat) (source : String) : String :=
  String.ofList (Text.mapLines (Lexing.reindentedRow widen) source.toList)

/-- A source text indented in another way, with the margin where it was and wider lines still wider,
has the same tokens in the same lines or the same fault behind the same tokens. So it is the same
program, and does the same on every machine. -/
theorem reindented_runs_alike [Limits] {widen : Nat → Nat} (increasing : StrictMono widen)
    (margin : widen 0 = 0) {source : String}
    (plain : ∀ c ∈ source.toList, Text.isLineBreak c = true → c = '\n' ∨ c = '\r') :
    Text.lines (reindented widen source).toList =
        (Text.lines source.toList).map (Lexing.reindentedRow widen) ∧
      ((Lexer.new (reindented widen source)).tokenize.1.tokens =
          (Lexer.new source).tokenize.1.tokens ∧
        (Lexer.new (reindented widen source)).tokenize.1.line =
          (Lexer.new source).tokenize.1.line ∧
        (Lexer.new (reindented widen source)).tokenize.2 = (Lexer.new source).tokenize.2) ∧
      tokenize (reindented widen source) = tokenize source ∧
      compile (reindented widen source) = compile source ∧
      ∀ machine : Machine,
        machine.runSource (reindented widen source) = machine.runSource source := by
  have rows : Text.lines (reindented widen source).toList =
      (Text.lines source.toList).map (Lexing.reindentedRow widen) := by
    rw [reindented, String.toList_ofList]
    exact (Lexing.keepsLines_reindentedRow increasing margin).lines_mapLines plain
  have same := Lexing.cut_map increasing margin 1 1 [0] (Text.lines source.toList)
  rw [← rows, List.map_singleton, margin] at same
  have lexed : (Lexer.new (reindented widen source)).tokenize.1.tokens =
        (Lexer.new source).tokenize.1.tokens ∧
      (Lexer.new (reindented widen source)).tokenize.1.line =
        (Lexer.new source).tokenize.1.line ∧
      (Lexer.new (reindented widen source)).tokenize.2 = (Lexer.new source).tokenize.2 := by
    unfold Lexer.tokenize
    dsimp only [Lexer.new]
    rw [same]
    exact ⟨rfl, rfl, rfl⟩
  have sameTokens : tokenize (reindented widen source) = tokenize source := by
    unfold tokenize
    dsimp only
    rw [lexed.1, lexed.2.2]
  have sameProgram : compile (reindented widen source) = compile source := by
    unfold compile
    rw [sameTokens]
  refine ⟨rows, lexed, sameTokens, sameProgram, fun machine => ?_⟩
  unfold Machine.runSource
  rw [sameProgram]

def unevenSteps : String :=
  "if (x):\r\n        a\r    b\n \n      "

theorem reindented_runs_alike_squares :
    reindented (fun width => width * width) unevenSteps =
        "if (x):\r\n" ++ String.ofList (List.replicate 64 ' ') ++ "a\r" ++
          String.ofList (List.replicate 16 ' ') ++ "b\n \n" ++
          String.ofList (List.replicate 36 ' ') ∧
      tokenize (reindented (fun width => width * width) unevenSteps) = tokenize unevenSteps := by
  have increasing : StrictMono fun width : Nat => width * width :=
    fun _ _ wider => Nat.mul_self_lt_mul_self wider
  have plain : unevenSteps.toList.all
      fun c => !Text.isLineBreak c || c = '\n' || c = '\r' := by
    decide +kernel
  refine ⟨by decide +kernel, (reindented_runs_alike increasing rfl ?_).2.2.1⟩
  intro c member breaks
  have either := List.all_eq_true.mp plain c member
  rw [breaks] at either
  simpa using either

end IndentScript
