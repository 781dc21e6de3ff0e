import IndentScript.Machine.Session
import IndentScript.Proofs.Runs
import IndentScript.Proofs.SourceEnd
import IndentScript.Proofs.TokenPlaces

/-!
Two source texts with a line feed between them. The blocks that are open where the first text ends
are closed by the first line of the second, which is at the margin, so that the tokens are those of
the two texts but for their line numbers. Nothing at the start of a statement is taken for more of
the statement before it, except a parenthesis behind a name and a value behind `return`. So the
program is that of the first text followed by that of the second, and to run it is to run the one
and then the other.
-/

namespace IndentScript

/-! ### Lines -/

namespace Text

theorem eq_nil_of_lines_eq_nil {characters : List Char} (nothing : lines characters = []) :
    characters = [] := by
  fun_cases lines characters with
  | case1 => rfl
  | case2 rest => simp [lines] at nothing
  | case3 c rest notPair isEnd =>
      rw [lines, if_pos isEnd] at nothing
      · cases nothing
      · exact notPair
  | case4 c rest notPair notEnd isBreak =>
      rw [lines, if_neg notEnd, if_pos isBreak] at nothing
      · cases nothing
      · exact notPair
  | case5 c rest notPair notEnd notBreak empty =>
      rw [lines, if_neg notEnd, if_neg notBreak, empty] at nothing
      · cases nothing
      · exact notPair
  | case6 c rest notPair notEnd notBreak line others same =>
      rw [lines, if_neg notEnd, if_neg notBreak, same] at nothing
      · cases nothing
      · exact notPair

/-- A line feed ends the last line of the text before it. Where there is no such line, it ends an
empty one, unless it goes with a carriage return. -/
theorem lines_joined (front : List Char) :
    ∃ gap, (gap = [] ∨ gap = [[]]) ∧
      ∀ back, lines (front ++ '\n' :: back) = lines front ++ (gap ++ lines back) := by
  have feed : ∀ back, lines ('\n' :: back) = [] :: lines back := by simp [lines]
  fun_induction lines front with
  | case1 => exact ⟨[[]], .inr rfl, feed⟩
  | case2 rest ih =>
      obtain ⟨gap, isGap, same⟩ := ih
      exact ⟨gap, isGap, fun back => congrArg ([] :: ·) (same back)⟩
  | case3 c rest notPair isEnd ih =>
      cases rest with
      | nil =>
          rcases isEnd with rfl | rfl
          · exact ⟨[[]], .inr rfl, fun back => by simp [lines]⟩
          · exact ⟨[], .inl rfl, fun back => by simp [lines]⟩
      | cons second rest =>
          obtain ⟨gap, isGap, same⟩ := ih
          refine ⟨gap, isGap, fun back => ?_⟩
          rw [List.cons_append, lines, if_pos isEnd, same]
          · rfl
          · intro tail isReturn isFeed
            cases isFeed
            exact notPair rest isReturn rfl
  | case4 c rest notPair notEnd isBreak ih =>
      obtain ⟨gap, isGap, same⟩ := ih
      refine ⟨gap, isGap, fun back => ?_⟩
      rw [List.cons_append, lines, if_neg notEnd, if_pos isBreak, same]
      · rfl
      · intro tail isReturn _
        exact notEnd (.inr isReturn)
  | case5 c rest notPair notEnd notBreak nothing ih =>
      refine ⟨[], .inl rfl, fun back => ?_⟩
      rw [eq_nil_of_lines_eq_nil nothing, List.singleton_append, lines, if_neg notEnd,
        if_neg notBreak, feed]
      · rfl
      · intro tail isReturn _
        exact notEnd (.inr isReturn)
  | case6 c rest notPair notEnd notBreak line others same ih =>
      obtain ⟨gap, isGap, joined⟩ := ih
      refine ⟨gap, isGap, fun back => ?_⟩
      rw [List.cons_append, lines, if_neg notEnd, if_neg notBreak, joined, same]
      · rfl
      · intro tail isReturn _
        exact notEnd (.inr isReturn)

/-- A text that is empty or ends in a line feed is made of whole lines. -/
theorem lines_append {front : List Char} (whole : front = [] ∨ ∃ most, front = most ++ ['\n'])
    (back : List Char) : lines (front ++ back) = lines front ++ lines back := by
  rcases whole with rfl | ⟨most, rfl⟩
  · rfl
  · obtain ⟨gap, _, joined⟩ := lines_joined most
    rw [List.append_assoc, List.singleton_append, joined, joined, lines, List.append_nil,
      List.append_assoc]

end Text

namespace Lexing

/-! ### Line numbers -/

theorem lexeme_of_line {line : Nat} {c : Char} {rest : List Char} {found : Lexeme}
    (success : lexeme line c rest = .ok found) (other : Nat) : lexeme other c rest = .ok found := by
  unfold lexeme at success ⊢
  split at success
  · rename_i quote
    rw [if_pos quote]
    split at success
    · cases success
    · exact success
  · rename_i noQuote
    rw [if_neg noQuote]
    split at success
    · rename_i digit
      rw [if_pos digit]
      exact success
    · rename_i noDigit
      rw [if_neg noDigit]
      split at success
      · rename_i letter
        rw [if_pos letter]
        exact success
      · rename_i noLetter
        rw [if_neg noLetter]
        split at success
        · rename_i double
          rw [if_pos double]
          exact success
        · rename_i single
          rw [if_neg single]
          split at success
          · exact success
          · cases success

theorem scan_alike {line : Nat} {characters : List Char} (noFault : (scan line characters).2 = none)
    (other : Nat) :
    (scan other characters).2 = none ∧
      AlikeLists (scan line characters).1 (scan other characters).1 := by
  fun_induction scan line characters with
  | case1 =>
      rw [scan]
      exact ⟨rfl, .nil⟩
  | case2 c rest blank ih =>
      rw [scan, if_pos blank]
      exact ih noFault
  | case3 c rest visible fault failed => cases noFault
  | case4 c rest visible found success tokens fault scanned ih =>
      rw [scanned] at ih
      obtain ⟨noOtherFault, alike⟩ := ih noFault
      have same := lexeme_of_line success other
      rw [scan, if_neg visible]
      split
      · rename_i otherFault failed
        rw [same] at failed
        cases failed
      · rename_i otherFound otherSuccess
        rw [same] at otherSuccess
        cases otherSuccess
        exact ⟨noOtherFault, .cons ⟨rfl, rfl⟩ alike⟩

theorem alike_closings (line other count : Nat) :
    AlikeLists (List.replicate count (Token.closing line))
      (List.replicate count (Token.closing other)) := by
  induction count with
  | zero => exact .nil
  | succ count ih => exact .cons ⟨rfl, rfl⟩ ih

theorem layout_alike (line other width : Nat) (widths : List Nat) :
    AlikeLists (layout line width widths).1 (layout other width widths).1 ∧
      (layout line width widths).2 = (layout other width widths).2 := by
  have closings := alike_closings line other (closeWider width widths).1
  unfold layout
  dsimp only
  split
  · exact ⟨.cons ⟨rfl, rfl⟩ closings, rfl⟩
  · exact ⟨closings, rfl⟩

/-- Lines that are cut up without a fault are cut up alike whatever their numbers are. -/
theorem cut_alike {line next : Nat} {widths : List Nat} {rows : List (List Char)}
    (noFault : (cut line next widths rows).fault = none) (other otherNext : Nat) :
    (cut other otherNext widths rows).fault = none ∧
      AlikeLists (cut line next widths rows).tokens (cut other otherNext widths rows).tokens := by
  induction rows generalizing line next widths other otherNext with
  | nil => exact ⟨rfl, List.rel_append (alike_closings _ _ _) (.cons ⟨rfl, rfl⟩ .nil)⟩
  | cons characters rows ih =>
      obtain ⟨layoutAlike, sameWidths⟩ := layout_alike next otherNext (indentation characters) widths
      rw [cut] at noFault ⊢
      rw [cut]
      dsimp only at noFault ⊢
      cases scanned : (scan next (characters.drop (indentation characters))).2 with
      | some fault =>
          rw [scanned] at noFault
          cases noFault
      | none =>
          rw [scanned] at noFault
          obtain ⟨noOtherFault, lineAlike⟩ := scan_alike scanned otherNext
          obtain ⟨noRestFault, restAlike⟩ := ih noFault otherNext (otherNext + 1)
          rw [noOtherFault, ← sameWidths]
          exact ⟨noRestFault, List.rel_append (List.rel_append layoutAlike lineAlike) restAlike⟩

/-! ### The margin -/

theorem Nested.closeWider_zero {widths : List Nat} (nested : Nested widths) :
    Lexing.closeWider 0 widths = (widths.length - 1, [0]) := by
  induction widths with
  | nil => cases nested.bottom
  | cons top others ih =>
      rw [Lexing.closeWider]
      split
      · rename_i indented
        have inner := nested.tail indented
        have some := List.length_pos_iff.mpr inner.ne_nil
        rw [ih inner, List.length_cons]
        dsimp only
        congr 1
        omega
      · rename_i margin
        -- A block at the margin has none around it.
        obtain ⟨rfl⟩ : top = 0 := by omega
        have alone : others = [] := by
          by_contra someOthers
          obtain ⟨second, inOthers⟩ := List.exists_mem_of_ne_nil others someOthers
          have smaller := List.rel_of_pairwise_cons nested.decreasing inOthers
          omega
        rw [alone]
        rfl

/-- A line at the margin closes every block that is open. -/
theorem Nested.layout_zero {widths : List Nat} (nested : Nested widths) (line : Nat) :
    Lexing.layout line 0 widths = (List.replicate (widths.length - 1) (Token.closing line), [0]) := by
  rw [Lexing.layout, nested.closeWider_zero]
  rfl

/-- Lines of which the first is at the margin are cut up as if no block were open, behind the tokens
that close the open ones. -/
theorem Nested.cut_margin {widths : List Nat} (nested : Nested widths) (line next : Nat)
    {rows : List (List Char)} (margin : ∀ row ∈ rows.head?, indentation row = 0) :
    ∃ place, (cut line next widths rows).fault = (cut line next [0] rows).fault ∧
      (cut line next widths rows).tokens =
        List.replicate (widths.length - 1) (Token.closing place) ++
          (cut line next [0] rows).tokens := by
  cases rows with
  | nil => exact ⟨line, rfl, rfl⟩
  | cons characters others =>
      refine ⟨next, ?_⟩
      rw [cut, cut, margin characters rfl, nested.layout_zero, nested_zero.layout_zero]
      dsimp only
      cases (scan next (characters.drop 0)).2 with
      | some fault => exact ⟨rfl, rfl⟩
      | none => exact ⟨rfl, by simp⟩

/-- An empty line at the margin changes the numbers of the lines behind it only. -/
theorem cut_gap {gap : List (List Char)} (isGap : gap = [] ∨ gap = [[]]) (line next : Nat)
    (rows : List (List Char)) :
    ∃ other otherNext, cut line next [0] (gap ++ rows) = cut other otherNext [0] rows := by
  rcases isGap with rfl | rfl
  · exact ⟨line, next, rfl⟩
  · refine ⟨next, next + 1, ?_⟩
    rw [List.singleton_append, cut, scan.eq_def]
    rfl

theorem margin_of_gap {gap rows : List (List Char)} (isGap : gap = [] ∨ gap = [[]])
    (margin : ∀ row ∈ rows.head?, indentation row = 0) :
    ∀ row ∈ (gap ++ rows).head?, indentation row = 0 := by
  rcases isGap with rfl | rfl
  · exact margin
  · intro row isFirst
    cases isFirst
    rfl

/-- A line that is indented opens a block where none is open. -/
theorem layout_indented (line : Nat) {width : Nat} (indented : 0 < width) :
    layout line width [0] = ([Token.opening line], [width, 0]) := by
  rw [layout, closeWider, if_neg (Nat.not_lt_zero _)]
  exact if_pos indented

theorem indentation_of_cut {line next : Nat} {rows : List (List Char)}
    (noOpening : ∀ token ∈ (cut line next [0] rows).tokens.head?, token.kind ≠ .indent) :
    ∀ row ∈ rows.head?, indentation row = 0 := by
  cases rows with
  | nil => exact nofun
  | cons characters others =>
      intro row isFirst
      cases isFirst
      by_contra indented
      have wider : 0 < indentation characters := Nat.pos_of_ne_zero indented
      refine noOpening (Token.opening next) ?_ rfl
      rw [cut, layout_indented next wider]
      dsimp only
      cases (scan next (characters.drop (indentation characters))).2 with
      | some fault => rfl
      | none => rfl

end Lexing

/-! ### Tokens -/

/-- The tokens of a text are those in which the blocks that are open behind its lines are closed. -/
theorem Lexing.reach_of_cut {rows : List (List Char)} {tokens : List Token}
    (noFault : (cut 1 1 [0] rows).fault = none) (same : (cut 1 1 [0] rows).tokens = tokens) :
    (reach 1 1 [0] rows).fault = none ∧
      beforeEnd tokens = (reach 1 1 [0] rows).tokens ++
        List.replicate ((reach 1 1 [0] rows).widths.length - 1)
          (Token.closing (reach 1 1 [0] rows).line) := by
  have passed := cut_append 1 1 [0] rows []
  rw [List.append_nil, Outcome.resume] at passed
  cases faulty : (reach 1 1 [0] rows).fault with
  | some fault =>
      rw [faulty] at passed
      rw [passed, faulty] at noFault
      cases noFault
  | none =>
      rw [faulty] at passed
      refine ⟨rfl, ?_⟩
      rw [← same, passed]
      dsimp only [cut]
      rw [← List.append_assoc]
      refine (beforeEnd_append (leads_reach_closed rows).inside ?_).1
      intro token isFinal
      cases isFinal
      rfl

theorem tokenize_joined {first second : String} {tokens others : List Token}
    (lexed : tokenize first = .ok tokens) (otherLexed : tokenize second = .ok others)
    (noOpening : ∀ token ∈ others.head?, token.kind ≠ .indent) :
    ∃ joined, tokenize (first ++ "\n" ++ second) = .ok joined ∧
      AlikeLists (beforeEnd tokens ++ others) joined := by
  obtain ⟨noFault, same⟩ := tokenize_eq_ok_iff.mp lexed
  obtain ⟨noOtherFault, rfl⟩ := tokenize_eq_ok_iff.mp otherLexed
  obtain ⟨reached, before⟩ := Lexing.reach_of_cut noFault same
  have margin := Lexing.indentation_of_cut noOpening
  obtain ⟨gap, isGap, rows⟩ := Text.lines_joined first.toList
  obtain ⟨nested, _⟩ := Lexing.nested_zero.reach (Nat.le_refl 1) (Text.lines first.toList)
  -- The lines of the first text are cut up as before. What is left open behind them is closed by
  -- the next line, which is the empty one of the gap or the first one of the second text.
  have passed := Lexing.cut_append 1 1 [0] (Text.lines first.toList) (gap ++ Text.lines second.toList)
  rw [← rows second.toList, Lexing.Outcome.resume, reached] at passed
  obtain ⟨place, sameFault, sameTokens⟩ := nested.cut_margin
    (Lexing.reach 1 1 [0] (Text.lines first.toList)).line
    (1 + (Text.lines first.toList).length) (Lexing.margin_of_gap isGap margin)
  obtain ⟨line, next, afterGap⟩ := Lexing.cut_gap isGap
    (Lexing.reach 1 1 [0] (Text.lines first.toList)).line
    (1 + (Text.lines first.toList).length) (Text.lines second.toList)
  obtain ⟨noRestFault, alike⟩ := Lexing.cut_alike noOtherFault line next
  have characters : (first ++ "\n" ++ second).toList = first.toList ++ '\n' :: second.toList := by
    simp
  refine ⟨_, tokenize_eq_ok_iff.mpr ⟨?_, rfl⟩, ?_⟩
  · rw [characters, passed]
    dsimp only
    rw [sameFault, afterGap]
    exact noRestFault
  · rw [characters, passed, before]
    dsimp only
    rw [sameTokens, afterGap, List.append_assoc]
    exact List.rel_append (List.forall₂_same.mpr fun _ _ => ⟨rfl, rfl⟩)
      (List.rel_append (Lexing.alike_closings _ _ _) alike)

/-! ### Starts of statements -/

namespace Grammar

def operandStarts : List Kind :=
  [.number, .string, .identifier, .keyword .trueWord, .keyword .falseWord, .symbol .openParen]

def statementStarts : List Kind :=
  operandStarts ++
    [.keyword .localWord, .keyword .printlineWord, .keyword .printlinefWord, .keyword .ifWord,
      .keyword .forWord, .keyword .whileWord, .keyword .breakWord, .keyword .continueWord,
      .keyword .funcWord, .keyword .returnWord, .keyword .tableWord, .keyword .importWord]

theorem Yields.starts {phrase : Phrase} {taken : List Token} (yields : Yields phrase taken)
    (noList : ∀ values, phrase ≠ .arguments values) :
    ∃ token rest, taken = token :: rest ∧ token.kind ∈ operandStarts := by
  induction yields with
  | constant kind =>
      refine ⟨_, _, rfl, ?_⟩
      rcases kind with kind | kind <;> rw [kind] <;> decide
  | truth kind =>
      refine ⟨_, _, rfl, ?_⟩
      rcases kind with kind | kind <;> rw [kind] <;> decide
  | «variable» kind => exact ⟨_, _, rfl, by rw [kind]; decide⟩
  | call nameKind => exact ⟨_, _, rfl, by rw [nameKind]; decide⟩
  | group openingKind => exact ⟨_, _, rfl, by rw [openingKind]; decide⟩
  | operand _ ih => exact ih nofun
  | comparison _ ih => exact ih nofun
  | compare _ _ _ _ ihLeft =>
      obtain ⟨token, rest, rfl, known⟩ := ihLeft nofun
      exact ⟨token, _, rfl, known⟩
  | join _ _ _ _ ihLeft =>
      obtain ⟨token, rest, rfl, known⟩ := ihLeft nofun
      exact ⟨token, _, rfl, known⟩
  | noArgument => exact absurd rfl (noList [])
  | argument => exact absurd rfl (noList _)

theorem Derives.starts {value : Stmt} {taken follow : List Token}
    (derives : Derives (.statement value) taken follow) :
    ∃ token rest, taken = token :: rest ∧ token.kind ∈ statementStarts := by
  cases derives with
  | evaluate expression =>
      obtain ⟨token, rest, split, known⟩ := Yields.starts expression nofun
      exact ⟨token, rest, split, List.mem_append_left _ known⟩
  | print wordKind =>
      refine ⟨_, _, rfl, ?_⟩
      rcases wordKind with wordKind | wordKind <;> rw [wordKind] <;> decide
  | assign wordKind | branch wordKind | count wordKind | loop wordKind | leave wordKind
  | next wordKind | define wordKind | noResult wordKind | result wordKind | table wordKind
  | load wordKind => exact ⟨_, _, rfl, by rw [wordKind]; decide⟩

/-- What starts a statement goes on with no other phrase and opens no block. -/
theorem not_continuation_of_start :
    ∀ kind ∈ statementStarts, kind ∉ Kind.continuations ∧ kind ≠ .indent := by
  decide

end Grammar

/-! ### Statements -/

namespace Parser

section

variable {stop : Kind} {statement : Parser Stmt} {spent token : Token} {budget rest : List Token}

theorem statementsWithin_stopped (stopped : token.kind = stop) :
    statementsWithin stop statement (spent :: budget) (token :: rest) = .ok ([], token :: rest) := by
  change (if token.kind = stop then pure [] else _ : Parser Block) (token :: rest) = _
  rw [if_pos stopped]
  rfl

theorem statementsWithin_goesOn (goesOn : token.kind ≠ stop) :
    statementsWithin stop statement (spent :: budget) (token :: rest) =
      (do
        let first ← statement
        let others ← statementsWithin stop statement budget
        return first :: others : Parser Block) (token :: rest) := by
  change (if token.kind = stop then pure [] else _ : Parser Block) (token :: rest) = _
  rw [if_neg goesOn]

end

/-- A budget that is longer than the tokens lasts, so that all such budgets are alike. -/
theorem statementsWithin_lasts {depth : Nat} {final : Token} (isFinal : final.kind = .endOfSource)
    {inner budget otherBudget rest : List Token} {values : Block}
    (enough : inner.length < budget.length) (otherEnough : inner.length < otherBudget.length)
    (read : statementsWithin .endOfSource (statement depth) budget (inner ++ [final]) =
      .ok (values, rest)) :
    statementsWithin .endOfSource (statement depth) otherBudget (inner ++ [final]) =
      .ok (values, rest) := by
  have confined := confined_statement ⟨final, final, [], isFinal⟩ depth
  cases confined.statementsWithin (takes_statement depth) isFinal enough otherEnough
      (Seam.fits_of_endOfSource isFinal inner) with
  | success _ ends otherEnds => exact otherEnds.trans (ends.symm.trans read)
  | failure _ _ ends => cases read.symm.trans ends

/-- Statements before the end of the source are read alike if more statements stand in place of the
end, and then these are read. -/
theorem statementsWithin_joined {seam : Seam} {limit : Nat} {statement : Parser Stmt}
    (confined : Confined seam limit statement statement) (takes : Takes statement)
    {values others : Block} {left rest : List Token}
    (goesOn : ∀ budget : List Token, seam.others.length < budget.length →
      statementsWithin .endOfSource statement budget seam.follow = .ok (others, rest))
    {inner budget otherBudget : List Token} (fits : seam.Fits inner)
    (inside : ∀ token ∈ inner, token.kind ≠ .endOfSource) (enough : inner.length < budget.length)
    (otherEnough : inner.length + seam.others.length < otherBudget.length)
    (read : statementsWithin .endOfSource statement budget (inner ++ [seam.final]) =
      .ok (values, left)) :
    statementsWithin .endOfSource statement otherBudget (inner ++ seam.follow) =
      .ok (values ++ others, rest) := by
  -- A round of the reading alone is a round of the other one as well, as long as tokens are left.
  -- Where it stops at the end of the source, the other one goes on with what is in its place.
  induction budget generalizing inner otherBudget values with
  | nil => exact absurd enough (Nat.not_lt_zero _)
  | cons spent budget ih =>
      cases inner with
      | nil =>
          rw [List.nil_append, statementsWithin_stopped seam.isFinal] at read
          cases read
          exact goesOn otherBudget (by simpa using otherEnough)
      | cons token tail =>
          cases otherBudget with
          | nil => exact absurd otherEnough (Nat.not_lt_zero _)
          | cons otherSpent otherBudget =>
              have goes := inside token List.mem_cons_self
              rw [List.cons_append, statementsWithin_goesOn goes] at read
              rw [List.cons_append, statementsWithin_goesOn goes]
              obtain ⟨first, middle, readFirst, afterFirst⟩ := bind_eq_ok read
              obtain ⟨more, _, readMore, afterMore⟩ := bind_eq_ok afterFirst
              obtain ⟨rfl, rfl⟩ := pure_eq_ok afterMore
              have shorter := takes _ _ _ readFirst
              cases confined (token :: tail) fits with
              | failure _ _ ends => cases readFirst.symm.trans ends
              | @success _ left suffix ends otherEnds =>
                  cases readFirst.symm.trans ends
                  simp only [List.length_cons, List.length_append] at shorter enough otherEnough
                  have insideLeft := fun token member => inside token (suffix.subset member)
                  have readRest : statementsWithin .endOfSource statement otherBudget
                      (left ++ seam.follow) = .ok (more ++ others, rest) :=
                    ih (fits.of_suffix suffix) insideLeft (by omega) (by omega) readMore
                  exact (bind_ok otherEnds _).trans (bind_ok readRest _)

end Parser

theorem parseWithin_of_statements {depth : Nat} {tokens rest : List Token} {values : Block}
    (nonempty : tokens ≠ [])
    (read : Parser.statementsWithin .endOfSource (Parser.statement depth) tokens tokens =
      .ok (values, rest)) :
    parseWithin depth tokens = .ok ⟨values⟩ := by
  have all : Parser.statementsUntil .endOfSource (Parser.statement depth) tokens =
      .ok (values, rest) := read
  have whole : Parser.program depth tokens = .ok (⟨values⟩, rest) := Parser.bind_ok all _
  change Except.bind ((Parser.program depth).start tokens) _ = _
  rw [Parser.start_of_ne_nil _ nonempty, whole]
  rfl

/-- Where the one token list ends, nothing goes on with the other: a name has no parenthesis behind
it, and `return` has nothing behind it. -/
structure Apart (tokens others : List Token) : Prop where
  noCall : ∀ last ∈ (beforeEnd tokens).getLast?, ∀ first ∈ others.head?,
    ¬ (last.kind = .identifier ∧ first.kind = .symbol .openParen)
  noValue : ∀ last ∈ (beforeEnd tokens).getLast?, last.kind = .keyword .returnWord →
    beforeEnd others = []

/-- The tokens of a source text, the last of which is its end. -/
theorem tokenize_ends {source : String} {tokens : List Token} (lexed : tokenize source = .ok tokens) :
    ∃ final, tokens = beforeEnd tokens ++ [final] ∧ final.kind = .endOfSource ∧
      ∀ token ∈ beforeEnd tokens, token.kind ≠ .endOfSource := by
  obtain ⟨noFault, rfl⟩ := tokenize_eq_ok_iff.mp lexed
  obtain ⟨_, ended⟩ := Lexing.laidOut_cut (Text.lines source.toList)
  obtain ⟨_, inner, final, split, isFinal, inside⟩ := ended noFault
  have before : beforeEnd (inner ++ [final]) = inner := by
    refine (beforeEnd_append inside ?_).1
    intro token isLast
    cases isLast
    exact isFinal
  rw [split, before]
  exact ⟨final, rfl, isFinal, inside⟩

/-- The first token of a list that is read into a program starts a statement or is the end. -/
theorem head_of_parseWithin {depth : Nat} {tokens : List Token} {program : Program}
    (parsed : parseWithin depth tokens = .ok program) :
    ∀ token ∈ tokens.head?, token.kind = .endOfSource ∨ token.kind ∈ Grammar.statementStarts := by
  obtain ⟨rest, read⟩ := parseWithin_eq_ok parsed
  intro token isFirst
  by_cases ended : token.kind = .endOfSource
  · exact .inl ended
  · cases tokens with
    | nil => cases isFirst
    | cons first more =>
        cases isFirst
        rw [Parser.statementsWithin_goesOn ended] at read
        obtain ⟨value, front, middle, split, derives, _⟩ :=
          (Parser.sound_statement depth).step read
        obtain ⟨start, others, rfl, known⟩ := derives.starts
        cases split
        exact .inr known

theorem parseWithin_joined {depth : Nat} {inner ahead others : List Token}
    {final last head : Token} {program rest : Program} (isFinal : final.kind = .endOfSource)
    (inside : ∀ token ∈ inner, token.kind ≠ .endOfSource)
    (fits : Seam.Fits ⟨final, head, others, isFinal⟩ inner)
    (split : head :: others = ahead ++ [last]) (isLast : last.kind = .endOfSource)
    (parsed : parseWithin depth (inner ++ [final]) = .ok program)
    (otherParsed : parseWithin depth (head :: others) = .ok rest) :
    parseWithin depth (inner ++ head :: others) = .ok ⟨program.statements ++ rest.statements⟩ := by
  obtain ⟨_, read⟩ := parseWithin_eq_ok parsed
  obtain ⟨left, otherRead⟩ := parseWithin_eq_ok otherParsed
  have sameLength : others.length = ahead.length := by
    simpa using congrArg List.length split
  have goesOn : ∀ budget : List Token, others.length < budget.length →
      Parser.statementsWithin .endOfSource (Parser.statement depth) budget (head :: others) =
        .ok (rest.statements, left) := by
    intro budget enough
    rw [split] at otherRead ⊢
    exact Parser.statementsWithin_lasts isLast (by simp) (by omega) otherRead
  have confined := Parser.confined_statement ⟨final, head, others, isFinal⟩ depth
  exact parseWithin_of_statements
    (List.append_ne_nil_of_right_ne_nil _ (List.cons_ne_nil _ _))
    (Parser.statementsWithin_joined confined (Parser.takes_statement depth) goesOn fits inside
      (by simp) (by simp) read)

/-- The programs of two texts, the tokens of which are apart, stand one after the other in the
program of the texts with a line feed between them. -/
theorem parseWithin_tokenize_joined {first second : String} {tokens others : List Token}
    {depth : Nat} {program rest : Program} (lexed : tokenize first = .ok tokens)
    (parsed : parseWithin depth tokens = .ok program) (otherLexed : tokenize second = .ok others)
    (otherParsed : parseWithin depth others = .ok rest) (apart : Apart tokens others) :
    ∃ joined, tokenize (first ++ "\n" ++ second) = .ok joined ∧
      parseWithin depth joined = .ok ⟨program.statements ++ rest.statements⟩ := by
  have starts := head_of_parseWithin otherParsed
  have noOpening : ∀ token ∈ others.head?, token.kind ≠ .indent := by
    intro token isFirst
    rcases starts token isFirst with ended | known
    · rw [ended]
      exact Kind.noConfusion
    · exact (Grammar.not_continuation_of_start _ known).2
  obtain ⟨joined, joinedLexed, alike⟩ := tokenize_joined lexed otherLexed noOpening
  -- The line numbers do not matter, so that the tokens may be taken from the two texts.
  refine ⟨joined, joinedLexed, parseWithin_eq_ok_of_alike alike ?_⟩
  obtain ⟨final, split, isFinal, inside⟩ := tokenize_ends lexed
  obtain ⟨last, otherSplit, isLast, _⟩ := tokenize_ends otherLexed
  rw [split] at parsed
  cases others with
  | nil => cases otherParsed
  | cons head tail =>
      refine parseWithin_joined isFinal inside ?_ otherSplit isLast parsed otherParsed
      rcases starts head rfl with ended | known
      · exact Seam.fits_of_endOfSource ended _
      · refine ⟨(Grammar.not_continuation_of_start _ known).1, ?_, ?_⟩
        · intro token isLastToken name call
          exact apart.noCall token isLastToken head rfl ⟨name, call⟩
        · intro token isLastToken isReturn
          have nothing := apart.noValue token isLastToken isReturn
          rw [nothing] at otherSplit
          cases otherSplit
          exact isLast

/-! ### Runs -/

namespace Machine

variable [Limits]

theorem runProgramWithin_append (rounds depth : Nat) (machine : Machine) (front back : Block)
    (finished : (machine.runProgramWithin rounds depth ⟨front⟩).1 = none) :
    machine.runProgramWithin rounds depth ⟨front ++ back⟩ =
      (machine.runProgramWithin rounds depth ⟨front⟩).2.runProgramWithin rounds depth ⟨back⟩ := by
  have split : Run.programWithin rounds depth ⟨front ++ back⟩ =
      Run.programWithin rounds depth ⟨front⟩ >>= fun _ => Run.programWithin rounds depth ⟨back⟩ :=
    List.forM_append
  rw [runProgramWithin, split]
  cases ran : (Run.programWithin rounds depth ⟨front⟩).run.run machine with
  | mk ended left =>
      unfold runProgramWithin at finished ⊢
      rw [ran] at finished ⊢
      cases ended with
      | ok _ => rw [Run.run_bind_ok ran]
      | error stop => cases finished

theorem runSource_of_compile {source : String} {tokens : List Token} {program : Program}
    (lexed : tokenize source = .ok tokens) (parsed : parse tokens = .ok program) (machine : Machine) :
    machine.runSource source =
      ((machine.runProgram program).1.map .stopped, (machine.runProgram program).2) := by
  have compiled : compile source = .ok program := by
    unfold compile
    rw [lexed]
    change (parse tokens).mapError Failure.syntactic = _
    rw [parsed]
    rfl
  rw [runSource, compiled]

/-- Two texts that are each read into a program, and whose tokens are apart, are together read into
the one program followed by the other. If the first program runs to its end, then to run the texts
together is to run the first and then the second on the machine that the first leaves. -/
theorem runSource_joined {first second : String} {tokens others : List Token} {depth : Nat}
    {program rest : Program} (lexed : tokenize first = .ok tokens)
    (parsed : parseWithin depth tokens = .ok program) (otherLexed : tokenize second = .ok others)
    (otherParsed : parseWithin depth others = .ok rest) (apart : Apart tokens others) :
    (∃ joined, tokenize (first ++ "\n" ++ second) = .ok joined ∧
      parseWithin depth joined = .ok ⟨program.statements ++ rest.statements⟩) ∧
    (∀ rounds level (machine : Machine), (machine.runProgramWithin rounds level program).1 = none →
      machine.runProgramWithin rounds level ⟨program.statements ++ rest.statements⟩ =
        (machine.runProgramWithin rounds level program).2.runProgramWithin rounds level rest) ∧
    (depth = Parser.nestingLimit → ∀ machine : Machine, (machine.runSource first).1 = none →
      machine.runSource (first ++ "\n" ++ second) =
        (machine.runSource first).2.runSource second) := by
  obtain ⟨joined, joinedLexed, joinedParsed⟩ :=
    parseWithin_tokenize_joined lexed parsed otherLexed otherParsed apart
  refine ⟨⟨joined, joinedLexed, joinedParsed⟩, ?_, ?_⟩
  · intro rounds level machine
    exact machine.runProgramWithin_append rounds level program.statements rest.statements
  · rintro rfl machine finished
    rw [Machine.runSource_of_compile lexed parsed] at finished ⊢
    rw [Machine.runSource_of_compile joinedLexed joinedParsed,
      Machine.runSource_of_compile otherLexed otherParsed]
    have runs := machine.runProgramWithin_append Run.roundLimit Run.depthLimit program.statements
      rest.statements (Option.map_eq_none_iff.mp finished)
    rw [Machine.runProgram, runs]
    rfl

end Machine

def endsInBlock : String :=
  "local n = 2\nif (n):\n    n"

def endsInBlockTokens : List Token :=
  [⟨.keyword .localWord, .text "local", 1⟩, ⟨.identifier, .text "n", 1⟩,
    ⟨.symbol .assign, .text "=", 1⟩, ⟨.number, .number 2, 1⟩, ⟨.keyword .ifWord, .text "if", 2⟩,
    ⟨.symbol .openParen, .text "(", 2⟩, ⟨.identifier, .text "n", 2⟩,
    ⟨.symbol .closeParen, .text ")", 2⟩, ⟨.symbol .colon, .text ":", 2⟩, Token.opening 3,
    ⟨.identifier, .text "n", 3⟩, Token.closing 3, Token.final 3]

def startsWithGroup : String :=
  "(n)\n"

def startsWithGroupTokens : List Token :=
  [⟨.symbol .openParen, .text "(", 1⟩, ⟨.identifier, .text "n", 1⟩,
    ⟨.symbol .closeParen, .text ")", 1⟩, Token.final 1]

/-- The parenthesis is not taken for the arguments of the name, since the block ends between them. -/
theorem Machine.runSource_endsInBlock :
    (∃ joined, tokenize (endsInBlock ++ "\n" ++ startsWithGroup) = .ok joined ∧
      parseWithin Parser.nestingLimit joined =
        .ok ⟨[.assign "n" (.literal (.int 2)),
          .branch (.variable "n") [.evaluate (.variable "n")] [] none, .evaluate (.variable "n")]⟩) ∧
    ((Machine.new {}).runSource endsInBlock).1 = none ∧
    (Machine.new {}).runSource (endsInBlock ++ "\n" ++ startsWithGroup) =
      ((Machine.new {}).runSource endsInBlock).2.runSource startsWithGroup := by
  have lexed : tokenize endsInBlock = .ok endsInBlockTokens :=
    tokenize_eq_ok_iff.mpr ⟨by decide +kernel, by decide +kernel⟩
  have otherLexed : tokenize startsWithGroup = .ok startsWithGroupTokens :=
    tokenize_eq_ok_iff.mpr ⟨by decide +kernel, by decide +kernel⟩
  have finished : ((Machine.new {}).runSource endsInBlock).1 = none :=
    Option.isNone_iff_eq_none.mp (by decide +kernel)
  have apart : Apart endsInBlockTokens startsWithGroupTokens := by
    refine ⟨?_, ?_⟩ <;> decide
  have result := runSource_joined lexed
    (rfl : parseWithin Parser.nestingLimit endsInBlockTokens = .ok _) otherLexed
    (rfl : parseWithin Parser.nestingLimit startsWithGroupTokens = .ok _) apart
  exact ⟨result.1, finished, result.2.2 rfl _ finished⟩

end IndentScript
