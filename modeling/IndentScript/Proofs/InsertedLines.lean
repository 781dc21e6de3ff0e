import IndentScript.Proofs.DeadEnds
import IndentScript.Proofs.Indentation

/-!
A line put between the lines of a source text. An empty line is at the margin and closes every block
that is open. Where the next line is indented, it opens a block again, which no statement asks for;
elsewhere it would have closed the blocks itself. So an empty line leaves a program as it is or makes
the text one that is refused.

The word that ends a function can do without a value only before the end of the source. At the end of
a block there is the token that closes it, so that a line with that word alone is refused there.
-/

namespace IndentScript

/-! ### Blocks that are open behind some lines -/

namespace Lexing

/-- The widths of the blocks that are open behind the lines of a text, innermost first. -/
def openBehind (text : String) : List Nat :=
  (reach 1 1 [0] (Text.lines text.toList)).widths

def firstWidth (text : String) : Nat :=
  indentation ((Text.lines text.toList).headD [])

/-- No block of the first text goes on in the second. -/
def Parted (before behind : String) : Prop :=
  openBehind before = [0] ∨ behind = "" ∨ firstWidth behind = 0

instance (before behind : String) : Decidable (Parted before behind) :=
  inferInstanceAs (Decidable (openBehind before = [0] ∨ behind = "" ∨ firstWidth behind = 0))

theorem clean_nil : Clean [] := by
  rw [Clean, List.dropWhile_nil, scan]

theorem reach_append_of_clean {front : List (List Char)} (clean : ∀ row ∈ front, Clean row)
    (line next : Nat) (widths : List Nat) (back : List (List Char)) :
    (reach line next widths (front ++ back)).widths =
      (reach (reach line next widths front).line (next + front.length)
        (reach line next widths front).widths back).widths := by
  induction front generalizing line next widths with
  | nil => rfl
  | cons row rows ih =>
      obtain ⟨first, others⟩ := List.forall_mem_cons.mp clean
      rw [List.cons_append, reach, reach]
      dsimp only
      rw [(clean_iff next).mp first]
      dsimp only
      rw [ih others, List.length_cons, Nat.add_right_comm next 1, Nat.add_assoc next]

/-- An empty line leaves no block open. -/
theorem widths_reach_empty {rows : List (List Char)} (clean : ∀ row ∈ rows, Clean row) :
    (reach 1 1 [0] (rows ++ [[]])).widths = [0] := by
  obtain ⟨nested, _⟩ := nested_zero.reach (Nat.le_refl 1) rows
  have margin : indentation [] = 0 := rfl
  rw [reach_append_of_clean clean, reach]
  dsimp only
  rw [(clean_iff _).mp clean_nil, margin, nested.layout_zero]
  rfl

theorem Nested.closeWider_of_mem {widths : List Nat} (nested : Nested widths) {width : Nat}
    (listed : width ∈ widths) :
    ∃ count outer, Lexing.closeWider width widths = (count, width :: outer) := by
  induction widths with
  | nil => cases listed
  | cons top others ih =>
      rw [Lexing.closeWider]
      rcases List.mem_cons.mp listed with rfl | inOthers
      · exact ⟨0, others, if_neg (Nat.lt_irrefl _)⟩
      · have wider := List.rel_of_pairwise_cons nested.decreasing inOthers
        obtain ⟨count, outer, same⟩ := ih (nested.tail (Nat.zero_lt_of_lt wider)) inOthers
        rw [if_pos wider, same]
        exact ⟨count + 1, outer, rfl⟩

/-- A line as wide as an open block closes the wider ones and opens none. -/
theorem Nested.layout_of_mem {widths : List Nat} (nested : Nested widths) {width : Nat}
    (listed : width ∈ widths) (line : Nat) :
    ∃ count outer, Lexing.layout line width widths =
      (List.replicate count (Token.closing line), width :: outer) := by
  obtain ⟨count, outer, same⟩ := nested.closeWider_of_mem listed
  refine ⟨count, outer, ?_⟩
  rw [Lexing.layout, same]
  exact if_neg (Nat.lt_irrefl _)

/-- Behind a line of a block, a narrower line or the end of the text has a token of the layout. -/
theorem Nested.cut_narrower {width : Nat} {outer : List Nat} (nested : Nested (width :: outer))
    (indented : 0 < width) (line next : Nat) {rows : List (List Char)}
    (clean : ∀ row ∈ rows, Clean row) (narrower : indentation (rows.headD []) < width) :
    ∃ token rest, (cut line next (width :: outer) rows).tokens = token :: rest ∧
      (token.kind = .indent ∨ token.kind = .dedent) := by
  cases rows with
  | nil =>
      have others := List.length_pos_iff.mpr (nested.tail indented).ne_nil
      obtain ⟨count, same⟩ := Nat.exists_eq_succ_of_ne_zero (Nat.ne_of_gt others)
      rw [cut, List.length_cons, Nat.add_sub_cancel, same]
      exact ⟨Token.closing line, _, rfl, .inr rfl⟩
  | cons row rows =>
      have closes : Lexing.closeWider (indentation row) (width :: outer) =
          ((Lexing.closeWider (indentation row) outer).1 + 1,
            (Lexing.closeWider (indentation row) outer).2) := by
        have isWider : indentation row < width := narrower
        rw [Lexing.closeWider, if_pos isWider]
      rw [cut_cons_of_clean (clean row List.mem_cons_self), Lexing.layout, closes]
      dsimp only
      split
      · exact ⟨Token.opening next, _, rfl, .inl rfl⟩
      · exact ⟨Token.closing next, _, rfl, .inr rfl⟩

end Lexing

/-! ### Lines that lead to a dead end -/

theorem DeadEnd.behind_closings {more : List Token} (deadEnd : DeadEnd more) (count line : Nat) :
    DeadEnd (List.replicate count (Token.closing line) ++ more) := by
  induction count with
  | zero => exact deadEnd
  | succ count ih => exact .closing rfl ih

/-- With a clean line put between its lines, a text that has tokens has tokens again. -/
theorem tokenize_inserted {source other : String} {front back : List (List Char)} {row : List Char}
    (rows : Text.lines source.toList = front ++ back)
    (otherRows : Text.lines other.toList = front ++ row :: back) (cleanRow : Lexing.Clean row)
    {tokens : List Token} (lexed : tokenize source = .ok tokens) :
    (∀ row ∈ front ++ back, Lexing.Clean row) ∧
      tokens = (Lexing.cut 1 1 [0] (front ++ back)).tokens ∧
      tokenize other = .ok (Lexing.cut 1 1 [0] (front ++ row :: back)).tokens := by
  have clean := exists_tokenize_iff.mp ⟨tokens, lexed⟩
  have same := (tokenize_eq_ok_iff.mp lexed).2
  rw [rows] at clean same
  obtain ⟨cleanFront, cleanBack⟩ := List.forall_mem_append.mp clean
  refine ⟨clean, same.symm, ?_⟩
  rw [tokenize_eq_ok_iff, otherRows, Lexing.cut_fault_eq_none_iff, List.forall_mem_append,
    List.forall_mem_cons]
  exact ⟨⟨cleanFront, cleanRow, cleanBack⟩, rfl⟩

/-- Of two texts with the same first lines, the one whose other lines are a dead end is refused; and
it is refused for the syntax if the other text is a program. -/
theorem DeadEnd.refused_lines {front others : List (List Char)}
    (clean : ∀ row ∈ front, Lexing.Clean row) {blocked : List Token} (deadEnd : DeadEnd blocked)
    (noOpening : ∀ first ∈ blocked.head?, first.kind ≠ .indent)
    (ahead : (Lexing.cut (Lexing.reach 1 1 [0] front).line (1 + front.length)
      (Lexing.reach 1 1 [0] front).widths others).tokens = blocked)
    (back : List (List Char)) (level : Nat) :
    ∃ failure, parseWithin level (Lexing.cut 1 1 [0] (front ++ others)).tokens = .error failure ∧
      ∀ depth program, parseWithin depth (Lexing.cut 1 1 [0] (front ++ back)).tokens = .ok program →
        depth < level → failure.fault.isSyntactic = true := by
  obtain ⟨_, leads, _⟩ := Lexing.nested_zero.reach (Nat.le_refl 1) front
  rw [Lexing.cut_append_of_clean clean, Lexing.cut_append_of_clean clean, ahead]
  obtain ⟨failure, failed, syntactic⟩ :=
    deadEnd.refused (fun _ _ _ => noOpening) leads.inside level
  exact ⟨failure, failed, syntactic _⟩

/-! ### Empty lines -/

namespace Lexing

/-- An empty line closes every block, and the lines behind it find none open. -/
theorem Nested.cut_empty {widths : List Nat} (nested : Nested widths) (line next : Nat)
    (rows : List (List Char)) :
    (cut line next widths ([] :: rows)).tokens =
      List.replicate (widths.length - 1) (Token.closing next) ++
        (cut next (next + 1) [0] rows).tokens := by
  have margin : indentation [] = 0 := rfl
  rw [cut_cons_of_clean clean_nil, margin, nested.layout_zero, List.drop_nil, scan, List.append_nil]

/-- An empty line between some lines changes the numbers of the lines behind it only, if no block of
the lines before it goes on there. -/
theorem cut_empty_alike {front back : List (List Char)}
    (clean : ∀ row ∈ front ++ back, Clean row)
    (parted : (reach 1 1 [0] front).widths = [0] ∨ indentation (back.headD []) = 0) :
    AlikeLists (cut 1 1 [0] (front ++ back)).tokens (cut 1 1 [0] (front ++ [] :: back)).tokens := by
  obtain ⟨cleanFront, cleanBack⟩ := List.forall_mem_append.mp clean
  obtain ⟨nested, _⟩ := nested_zero.reach (Nat.le_refl 1) front
  -- Either no block is open, or the next line closes all that are.
  have closes : ∀ line next, ∃ place, (cut line next (reach 1 1 [0] front).widths back).tokens =
      List.replicate ((reach 1 1 [0] front).widths.length - 1) (Token.closing place) ++
        (cut line next [0] back).tokens := by
    intro line next
    rcases parted with margin | margin
    · exact ⟨line, by rw [margin]; rfl⟩
    · have atMargin : ∀ row ∈ back.head?, indentation row = 0 := by
        intro row isFirst
        cases back with
        | nil => cases isFirst
        | cons first others =>
            cases isFirst
            exact margin
      obtain ⟨place, _, same⟩ := nested.cut_margin line next atMargin
      exact ⟨place, same⟩
  obtain ⟨place, same⟩ := closes (reach 1 1 [0] front).line (1 + front.length)
  have noFault := (@cut_fault_eq_none_iff (reach 1 1 [0] front).line (1 + front.length) [0] back).mpr
    cleanBack
  rw [cut_append_of_clean cleanFront, cut_append_of_clean cleanFront, nested.cut_empty, same]
  exact List.rel_append (List.forall₂_same.mpr fun _ _ => ⟨rfl, rfl⟩)
    (List.rel_append (alike_closings _ _ _) (cut_alike noFault _ _).2)

theorem Nested.eq_zero_of_length_le {widths : List Nat} (nested : Nested widths)
    (single : widths.length ≤ 1) : widths = [0] := by
  have bottom := nested.drop_all_but_last
  rwa [Nat.sub_eq_zero_of_le single, List.drop_zero] at bottom

/-- Behind an empty line that closes a block, an indented line is a dead end. -/
theorem Nested.deadEnd_empty {widths : List Nat} (nested : Nested widths) (someOpen : widths ≠ [0])
    (line next : Nat) {rows : List (List Char)} (clean : ∀ row ∈ rows, Clean row)
    (indented : 0 < indentation (rows.headD [])) :
    DeadEnd (cut line next widths ([] :: rows)).tokens ∧
      ∀ first ∈ (cut line next widths ([] :: rows)).tokens.head?, first.kind ≠ .indent := by
  obtain ⟨count, same⟩ : ∃ count, widths.length - 1 = count + 1 := by
    refine Nat.exists_eq_succ_of_ne_zero fun none => someOpen (nested.eq_zero_of_length_le ?_)
    omega
  rw [nested.cut_empty, same]
  constructor
  · apply DeadEnd.behind_closings
    cases rows with
    | nil => exact absurd indented (Nat.lt_irrefl 0)
    | cons row others =>
        have isIndented : 0 < indentation row := indented
        rw [cut_cons_of_clean (clean row List.mem_cons_self), layout_indented _ isIndented]
        exact .opening rfl
  · intro first isFirst
    cases isFirst
    exact Kind.noConfusion

end Lexing

theorem parseWithin_alike_iff {level : Nat} {tokens others : List Token} {program : Program}
    (alike : AlikeLists tokens others) :
    parseWithin level others = .ok program ↔ parseWithin level tokens = .ok program := by
  have back : AlikeLists others tokens :=
    (alike.imp fun _ _ same => ⟨same.1.symm, same.2.symm⟩).flip
  exact ⟨parseWithin_eq_ok_of_alike back, parseWithin_eq_ok_of_alike alike⟩

theorem Text.toList_whole {text : String} (whole : text = "" ∨ ∃ most, text = most ++ "\n") :
    text.toList = [] ∨ ∃ most, text.toList = most ++ ['\n'] := by
  rcases whole with rfl | ⟨most, rfl⟩
  · exact .inl rfl
  · exact .inr ⟨most.toList, by simp⟩

/-- An empty line put behind whole lines of a source text. If no block that is open there goes on
behind it, the text is read into the programs it was read into before. Everywhere else the text is
not read into any program; and if it was read into one before, it is refused for the syntax by every
reading that may nest deeper. -/
theorem empty_line_inserted {before behind : String}
    (whole : before = "" ∨ ∃ most, before = most ++ "\n") {tokens : List Token}
    (lexed : tokenize (before ++ behind) = .ok tokens) :
    ∃ others, tokenize (before ++ "\n" ++ behind) = .ok others ∧
      (Lexing.Parted before behind → ∀ level program,
        parseWithin level others = .ok program ↔ parseWithin level tokens = .ok program) ∧
      (¬ Lexing.Parted before behind → ∀ level,
        ∃ failure, parseWithin level others = .error failure ∧
          ∀ depth program, parseWithin depth tokens = .ok program → depth < level →
            failure.fault.isSyntactic = true) := by
  have feed : Text.lines ('\n' :: behind.toList) = [] :: Text.lines behind.toList := by
    simp [Text.lines]
  have rows : Text.lines (before ++ behind).toList =
      Text.lines before.toList ++ Text.lines behind.toList := by
    rw [String.toList_append, Text.lines_append (Text.toList_whole whole)]
  have otherRows : Text.lines (before ++ "\n" ++ behind).toList =
      Text.lines before.toList ++ [] :: Text.lines behind.toList := by
    have characters : (before ++ "\n" ++ behind).toList =
        before.toList ++ '\n' :: behind.toList := by simp
    rw [characters, Text.lines_append (Text.toList_whole whole), feed]
  obtain ⟨clean, rfl, otherLexed⟩ := tokenize_inserted rows otherRows Lexing.clean_nil lexed
  refine ⟨_, otherLexed, ?_, ?_⟩
  · intro parted level program
    refine parseWithin_alike_iff (Lexing.cut_empty_alike clean ?_)
    rcases parted with nothingOpen | rfl | margin
    · exact .inl nothingOpen
    · exact .inr rfl
    · exact .inr margin
  · intro goesOn level
    obtain ⟨cleanBefore, cleanBehind⟩ := List.forall_mem_append.mp clean
    obtain ⟨nested, _⟩ := Lexing.nested_zero.reach (Nat.le_refl 1) (Text.lines before.toList)
    obtain ⟨deadEnd, noOpening⟩ := nested.deadEnd_empty (fun margin => goesOn (.inl margin)) _ _
      cleanBehind (Nat.pos_of_ne_zero fun margin => goesOn (.inr (.inr margin)))
    exact DeadEnd.refused_lines cleanBefore deadEnd noOpening rfl _ level

def nestedBlocks : String :=
  "func f():\n    if (x):\n        g()"

theorem exists_parsed {source : String} {depth : Nat}
    (parses : ((tokenize source).toOption.bind fun tokens =>
      (parseWithin depth tokens).toOption).isSome = true) :
    ∃ tokens program, tokenize source = .ok tokens ∧ parseWithin depth tokens = .ok program := by
  cases lexed : tokenize source with
  | error fault =>
      rw [lexed] at parses
      cases parses
  | ok tokens =>
      rw [lexed] at parses
      change (parseWithin depth tokens).toOption.isSome = true at parses
      cases parsed : parseWithin depth tokens with
      | error failure =>
          rw [parsed] at parses
          cases parses
      | ok program => exact ⟨tokens, program, rfl, parsed⟩

theorem empty_line_inserted_nestedBlocks :
    ¬ Lexing.Parted (nestedBlocks ++ "\n") "    h()\n" ∧
      ∃ others, tokenize (nestedBlocks ++ "\n" ++ "\n" ++ "    h()\n") = .ok others ∧
        ∀ level, 4 < level → ∃ failure, parseWithin level others = .error failure ∧
          failure.fault.isSyntactic = true := by
  have goesOn : ¬ Lexing.Parted (nestedBlocks ++ "\n") "    h()\n" := by decide +kernel
  obtain ⟨tokens, program, lexed, parsed⟩ :=
    @exists_parsed (nestedBlocks ++ "\n" ++ "    h()\n") 4 (by decide +kernel)
  obtain ⟨others, otherLexed, _, refused⟩ := empty_line_inserted (.inr ⟨nestedBlocks, rfl⟩) lexed
  refine ⟨goesOn, others, otherLexed, ?_⟩
  intro level deeper
  obtain ⟨failure, failed, syntactic⟩ := refused goesOn level
  exact ⟨failure, failed, syntactic 4 program parsed deeper⟩

/-! ### Ends of functions without a value -/

def bareReturn (width : Nat) : String :=
  String.ofList (List.replicate width ' ') ++ "return"

theorem toList_bareReturn (width : Nat) :
    (bareReturn width).toList = List.replicate width ' ' ++ "return".toList := by
  rw [bareReturn, String.toList_append, String.toList_ofList]

theorem unbroken_bareReturn (width : Nat) :
    ∀ c ∈ (bareReturn width).toList, Text.isLineBreak c = false := by
  have word : "return".toList.all (fun c => Text.isLineBreak c = false) = true := by decide
  rw [toList_bareReturn, List.forall_mem_append]
  constructor
  · intro c member
    rw [List.eq_of_mem_replicate member]
    decide
  · simpa using List.all_eq_true.mp word

namespace Lexing

theorem indentation_bareReturn (width : Nat) : indentation (bareReturn width).toList = width := by
  rw [toList_bareReturn, indentation_append, List.length_replicate]
  · intro c member
    rw [List.eq_of_mem_replicate member]
    decide
  · decide

/-- The line shows the one word. -/
theorem scan_bareReturn (width line : Nat) :
    (scan line ((bareReturn width).toList.drop width)).2 = none ∧
      ∃ word, (scan line ((bareReturn width).toList.drop width)).1 = [word] ∧
        word.kind = .keyword .returnWord := by
  have shown : (bareReturn width).toList.drop width = "return".toList := by
    rw [toList_bareReturn, List.drop_append_of_le_length (by simp), List.drop_of_length_le (by simp)]
    rfl
  have first : scan 1 "return".toList = ([⟨.keyword .returnWord, .text "return", 1⟩], none) := by
    decide +kernel
  obtain ⟨noFault, alike⟩ := scan_alike (congrArg Prod.snd first) line
  rw [shown]
  refine ⟨noFault, ?_⟩
  rw [first] at alike
  generalize (scan line "return".toList).1 = found at alike ⊢
  cases alike with
  | cons same rest =>
      cases rest
      exact ⟨_, rfl, same.1.symm⟩

theorem clean_bareReturn (width : Nat) : Clean (bareReturn width).toList := by
  rw [clean_iff 1, indentation_bareReturn]
  exact (scan_bareReturn width 1).1

/-- Where a block ends, the word without a value is a dead end. -/
theorem Nested.deadEnd_bareReturn {widths : List Nat} (nested : Nested widths) {width : Nat}
    (listed : width ∈ widths) (line next : Nat) {rows : List (List Char)}
    (clean : ∀ row ∈ rows, Clean row) (narrower : indentation (rows.headD []) < width) :
    DeadEnd (cut line next widths ((bareReturn width).toList :: rows)).tokens ∧
      ∀ first ∈ (cut line next widths ((bareReturn width).toList :: rows)).tokens.head?,
        first.kind ≠ .indent := by
  obtain ⟨count, outer, layoutIs⟩ := nested.layout_of_mem listed next
  obtain ⟨_, word, shows, isWord⟩ := scan_bareReturn width next
  have inner : Nested (width :: outer) := by
    have behind := (nested.layout next width).1
    rwa [layoutIs] at behind
  obtain ⟨token, rest, ahead, isLayout⟩ :=
    inner.cut_narrower (Nat.zero_lt_of_lt narrower) next (next + 1) clean narrower
  rw [cut_cons_of_clean (clean_bareReturn width), indentation_bareReturn, layoutIs, shows, ahead,
    List.append_assoc, List.singleton_append]
  refine ⟨(DeadEnd.valueless isWord isLayout).behind_closings count next, ?_⟩
  cases count with
  | zero =>
      rintro first ⟨rfl⟩ isOpening
      rw [isWord] at isOpening
      cases isOpening
  | succ count =>
      rintro first ⟨rfl⟩
      exact Kind.noConfusion

end Lexing

/-- Where a block is open, a line feed at the end of the text ends its last line. -/
theorem Lexing.lines_of_mem_openBehind {text : String}
    (clean : ∀ row ∈ Text.lines text.toList, Clean row) {width : Nat} (indented : 0 < width)
    (isOpen : width ∈ openBehind (text ++ "\n")) :
    Text.lines (text ++ "\n").toList = Text.lines text.toList := by
  obtain ⟨gap, isGap, joined⟩ := Text.lines_joined text.toList
  have rows : Text.lines (text ++ "\n").toList = Text.lines text.toList ++ gap := by
    rw [String.toList_append, show "\n".toList = ['\n'] from rfl, joined, Text.lines, List.append_nil]
  rcases isGap with rfl | rfl
  · rw [rows, List.append_nil]
  · rw [openBehind, rows, widths_reach_empty clean, List.mem_singleton] at isOpen
    exact absurd isOpen (Nat.ne_of_gt indented)

/-- A line that ends a function without a value, put behind the last line of a block and as wide as
the block. The text has tokens again if it had them before, but it is not read into any program; and
if it was read into one before, it is refused for the syntax by every reading that may nest
deeper. -/
theorem bare_return_refused {first lineEnd second : String}
    (boundary : lineEnd = "\n" ∨ lineEnd = "" ∧ second = "") {width : Nat}
    (isOpen : width ∈ Lexing.openBehind (first ++ "\n"))
    (ends : Lexing.firstWidth second < width) {tokens : List Token}
    (lexed : tokenize (first ++ lineEnd ++ second) = .ok tokens) :
    ∃ others, tokenize (first ++ "\n" ++ bareReturn width ++ lineEnd ++ second) = .ok others ∧
      ∀ level, ∃ failure, parseWithin level others = .error failure ∧
        ∀ depth program, parseWithin depth tokens = .ok program → depth < level →
          failure.fault.isSyntactic = true := by
  have whole : (first ++ "\n").toList = [] ∨ ∃ most, (first ++ "\n").toList = most ++ ['\n'] :=
    Text.toList_whole (.inr ⟨first, rfl⟩)
  have rows : Text.lines (first ++ lineEnd ++ second).toList =
      Text.lines (first ++ "\n").toList ++ Text.lines second.toList := by
    rcases boundary with rfl | ⟨rfl, rfl⟩
    · rw [String.toList_append, Text.lines_append whole]
    · rw [String.append_empty, String.append_empty] at lexed ⊢
      rw [Lexing.lines_of_mem_openBehind (exists_tokenize_iff.mp ⟨tokens, lexed⟩)
        (Nat.zero_lt_of_lt ends) isOpen]
      exact (List.append_nil _).symm
  have otherRows : Text.lines (first ++ "\n" ++ bareReturn width ++ lineEnd ++ second).toList =
      Text.lines (first ++ "\n").toList ++ (bareReturn width).toList :: Text.lines second.toList := by
    rw [String.append_assoc, String.append_assoc, String.toList_append, Text.lines_append whole]
    congr 1
    rcases boundary with rfl | ⟨rfl, rfl⟩
    · have characters : (bareReturn width ++ ("\n" ++ second)).toList =
          (bareReturn width).toList ++ '\n' :: second.toList := by simp
      rw [characters, Text.lines_append_lineFeed _ _ (unbroken_bareReturn width)]
    · rw [String.append_empty, String.append_empty,
        Text.lines_unbroken _ (unbroken_bareReturn width)]
      · rfl
      · simp [toList_bareReturn]
  obtain ⟨clean, rfl, otherLexed⟩ :=
    tokenize_inserted rows otherRows (Lexing.clean_bareReturn width) lexed
  refine ⟨_, otherLexed, ?_⟩
  intro level
  obtain ⟨cleanFirst, cleanSecond⟩ := List.forall_mem_append.mp clean
  obtain ⟨nested, _⟩ := Lexing.nested_zero.reach (Nat.le_refl 1) (Text.lines (first ++ "\n").toList)
  obtain ⟨deadEnd, noOpening⟩ := nested.deadEnd_bareReturn isOpen _ _ cleanSecond ends
  exact DeadEnd.refused_lines cleanFirst deadEnd noOpening rfl _ level

theorem bare_return_refused_nestedBlocks :
    4 ∈ Lexing.openBehind (nestedBlocks ++ "\n") ∧ Lexing.firstWidth "h()\n" < 4 ∧
      ∃ others, tokenize (nestedBlocks ++ "\n" ++ bareReturn 4 ++ "\n" ++ "h()\n") = .ok others ∧
        ∀ level, 4 < level → ∃ failure, parseWithin level others = .error failure ∧
          failure.fault.isSyntactic = true := by
  have isOpen : 4 ∈ Lexing.openBehind (nestedBlocks ++ "\n") := by decide +kernel
  have ends : Lexing.firstWidth "h()\n" < 4 := by decide +kernel
  obtain ⟨tokens, program, lexed, parsed⟩ :=
    @exists_parsed (nestedBlocks ++ "\n" ++ "h()\n") 4 (by decide +kernel)
  obtain ⟨others, otherLexed, refused⟩ := bare_return_refused (.inl rfl) isOpen ends lexed
  refine ⟨isOpen, ends, others, otherLexed, ?_⟩
  intro level deeper
  obtain ⟨failure, failed, syntactic⟩ := refused level
  exact ⟨failure, failed, syntactic 4 program parsed deeper⟩

def bareEndTokens : List Token :=
  [⟨.keyword .funcWord, .text "func", 1⟩, ⟨.identifier, .text "f", 1⟩,
    ⟨.symbol .openParen, .text "(", 1⟩, ⟨.symbol .closeParen, .text ")", 1⟩,
    ⟨.symbol .colon, .text ":", 1⟩, Token.opening 2, ⟨.identifier, .text "g", 2⟩,
    ⟨.symbol .openParen, .text "(", 2⟩, ⟨.symbol .closeParen, .text ")", 2⟩,
    ⟨.keyword .returnWord, .text "return", 3⟩, Token.closing 3, Token.final 3]

/-- A function is read, and with its end at the end of its block it is refused. -/
theorem bare_return_at_end_of_block :
    (compile "func f():\n    g()\n").toOption.isSome = true ∧
      tokenize ("func f():\n    g()" ++ "\n" ++ bareReturn 4 ++ "\n") = .ok bareEndTokens ∧
      parse bareEndTokens = .error ⟨.expressionExpected, [Token.closing 3, Token.final 3]⟩ :=
  ⟨by decide +kernel, tokenize_eq_ok_iff.mpr ⟨by decide +kernel, by decide +kernel⟩, rfl⟩

end IndentScript
