import IndentScript.Proofs.Indentation

/-!
Lines that go back to a width at which no block is open. Such a line opens a block before it closes
the wider ones, so that among the tokens a block is opened and closed at once. A block opens behind
a colon only. So the text is refused, unless the line comes right behind the head of a statement
with a block; then that block is empty, and the line belongs to a block around it.
-/

namespace IndentScript

/-! ### Trees without an empty block -/

mutual

def Stmt.isFilled : Stmt → Bool
  | .branch _ body arms otherwise =>
    (!body.isEmpty && Stmt.areFilled body) && Stmt.armsAreFilled arms
      && Stmt.otherwiseIsFilled otherwise
  | .count _ _ body => !body.isEmpty && Stmt.areFilled body
  | .loop _ body => !body.isEmpty && Stmt.areFilled body
  | .define _ _ body => !body.isEmpty && Stmt.areFilled body
  | _ => true

def Stmt.areFilled : List Stmt → Bool
  | [] => true
  | statement :: rest => statement.isFilled && Stmt.areFilled rest

def Stmt.armsAreFilled : List (Expr × List Stmt) → Bool
  | [] => true
  | (_, body) :: rest => (!body.isEmpty && Stmt.areFilled body) && Stmt.armsAreFilled rest

def Stmt.otherwiseIsFilled : Option (List Stmt) → Bool
  | none => true
  | some body => !body.isEmpty && Stmt.areFilled body

end

def Program.isFilled (program : Program) : Bool :=
  Stmt.areFilled program.statements

namespace Grammar

def Sentence.isFilled : Sentence → Bool
  | .statement value => value.isFilled
  | .statements values => Stmt.areFilled values
  | .body values => !values.isEmpty && Stmt.areFilled values
  | .arms values => Stmt.armsAreFilled values
  | .otherwise value => Stmt.otherwiseIsFilled value

/-! ### Token lists without an empty block -/

/-- No block is closed right behind the token that opens it, and such a token is not the last. -/
structure Filled (tokens : List Token) : Prop where
  apart : tokens.IsChain fun one other => ¬ (one.kind = .indent ∧ other.kind = .dedent)
  last : ∀ token ∈ tokens.getLast?, token.kind ≠ .indent

theorem Filled.append {front back : List Token} (filledFront : Filled front)
    (filledBack : Filled back) : Filled (front ++ back) where
  apart := by
    refine List.isChain_append.mpr ⟨filledFront.apart, filledBack.apart, ?_⟩
    intro one isLast other _ empty
    exact filledFront.last one isLast empty.1
  last := by
    intro token isLast
    rw [List.getLast?_append] at isLast
    cases ends : back.getLast? with
    | none =>
        rw [ends] at isLast
        exact filledFront.last token isLast
    | some last =>
        rw [ends] at isLast
        exact filledBack.last token (ends.trans isLast)

theorem filled_of_kinds {tokens : List Token} (kinds : ∀ token ∈ tokens, token.kind ≠ .indent) :
    Filled tokens where
  apart := by
    induction tokens with
    | nil => exact .nil
    | cons token rest ih =>
        have others := ih fun other member => kinds other (List.mem_cons_of_mem token member)
        refine List.isChain_cons.mpr ⟨?_, others⟩
        intro other _ empty
        exact kinds token List.mem_cons_self empty.1
  last := fun token isLast => kinds token (List.mem_of_getLast? isLast)

theorem filled_nil : Filled [] :=
  filled_of_kinds (List.forall_mem_nil _)

theorem Filled.cons {token : Token} {rest : List Token} {kind : Kind} (same : token.kind = kind)
    (ordinary : kind ≠ .indent) (filled : Filled rest) : Filled (token :: rest) := by
  have single : Filled [token] := by
    apply filled_of_kinds
    rw [List.forall_mem_singleton, same]
    exact ordinary
  exact single.append filled

theorem filled_single {token : Token} {kind : Kind} (same : token.kind = kind)
    (ordinary : kind ≠ .indent) : Filled [token] :=
  filled_nil.cons same ordinary

theorem expressionKinds_ordinary : ∀ kind ∈ expressionKinds, kind ≠ .indent := by
  decide

theorem Yields.filled {phrase : Phrase} {taken : List Token} (yields : Yields phrase taken) :
    Filled taken :=
  filled_of_kinds fun token member => expressionKinds_ordinary _ (yields.kinds token member)

theorem IsCondition.filled {value : Expr} {taken : List Token}
    (condition : IsCondition value taken) : Filled taken := by
  cases condition with
  | mk openingKind expression closingKind =>
      exact (expression.filled.append (filled_single closingKind (by decide))).cons openingKind
        (by decide)

theorem Listing.filled {α : Type} {item : α → List Token → Prop} {values : List α}
    {taken : List Token} (listing : Listing item values taken)
    (items : ∀ value front, item value front → Filled front) : Filled taken := by
  induction listing with
  | nil => exact filled_nil
  | cons first comma _ ih =>
      have filledComma := filled_of_kinds fun token member =>
        expressionKinds_ordinary token.kind (comma.kinds token member)
      exact (items _ _ first).append (filledComma.append ih)

theorem IsParameter.filled (parameter : String) (taken : List Token)
    (isParameter : IsParameter parameter taken) : Filled taken := by
  cases isParameter with
  | mk kind => exact filled_single kind (by decide)

theorem IsField.filled (field : String × Expr) (taken : List Token)
    (isField : IsField field taken) : Filled taken := by
  cases isField with
  | mk keyKind colonKind expression =>
      exact (expression.filled.cons colonKind (by decide)).cons keyKind (by decide)

/-- A block with a statement in it does not start with the token that closes a block. -/
theorem Filled.body {colon opening closing : Token} {values : Block} {inner follow : List Token}
    (colonKind : colon.kind = .symbol .colon) (someValue : values ≠ [])
    (derives : Derives (.statements values) inner follow) (closingKind : closing.kind = .dedent)
    (filled : Filled inner) : Filled (colon :: opening :: (inner ++ [closing])) := by
  cases derives with
  | noStatement => exact absurd rfl someValue
  | @statements _ _ front back _ first _ =>
      obtain ⟨token, rest, rfl, known⟩ := first.starts
      have rest := filled.append (filled_single closingKind (by decide))
      refine Filled.cons colonKind (by decide) ⟨?_, ?_⟩
      · refine List.isChain_cons.mpr ⟨?_, rest.apart⟩
        rintro _ ⟨rfl⟩ ⟨_, closes⟩
        rw [closes] at known
        revert known
        decide
      · intro last isLast
        exact rest.last last isLast

theorem Derives.filled {sentence : Sentence} {taken follow : List Token}
    (derives : Derives sentence taken follow) (filled : sentence.isFilled = true) : Filled taken := by
  induction derives with
  | assign wordKind nameKind signKind value =>
      exact ((value.filled.cons signKind (by decide)).cons nameKind (by decide)).cons wordKind
        (by decide)
  | print wordKind openingKind arguments closingKind =>
      have inner := (arguments.filled.append (filled_single closingKind (by decide))).cons
        openingKind (by decide)
      rcases wordKind with wordKind | wordKind
      · exact inner.cons wordKind (by decide)
      · exact inner.cons wordKind (by decide)
  | branch wordKind condition _ _ _ ihBody ihArms ihOtherwise =>
      simp only [Sentence.isFilled, Stmt.isFilled, Bool.and_eq_true] at filled ihBody ihArms ihOtherwise
      obtain ⟨⟨body, arms⟩, otherwise⟩ := filled
      exact (condition.filled.append ((ihBody body).append ((ihArms arms).append
        (ihOtherwise otherwise)))).cons wordKind (by decide)
  | count wordKind nameKind inKind rangeKind condition _ ihBody =>
      exact ((((condition.filled.append (ihBody filled)).cons rangeKind (by decide)).cons inKind
        (by decide)).cons nameKind (by decide)).cons wordKind (by decide)
  | loop wordKind condition _ ihBody =>
      exact (condition.filled.append (ihBody filled)).cons wordKind (by decide)
  | leave wordKind => exact filled_single wordKind (by decide)
  | next wordKind => exact filled_single wordKind (by decide)
  | define wordKind nameKind openingKind parameters closingKind _ ihBody =>
      have rest := (parameters.filled IsParameter.filled).append
        ((ihBody filled).cons closingKind (by decide))
      exact ((rest.cons openingKind (by decide)).cons nameKind (by decide)).cons wordKind
        (by decide)
  | noResult wordKind => exact filled_single wordKind (by decide)
  | result wordKind value => exact value.filled.cons wordKind (by decide)
  | table wordKind nameKind signKind openingKind fields closingKind =>
      have rest := (fields.filled IsField.filled).append (filled_single closingKind (by decide))
      exact (((rest.cons openingKind (by decide)).cons signKind (by decide)).cons nameKind
        (by decide)).cons wordKind (by decide)
  | load wordKind libraryKind =>
      rcases libraryKind with libraryKind | libraryKind
      · exact (filled_single libraryKind (by decide)).cons wordKind (by decide)
      · exact (filled_single libraryKind (by decide)).cons wordKind (by decide)
  | evaluate value => exact value.filled
  | noStatement => exact filled_nil
  | statements _ _ ihFirst ihRest =>
      simp only [Sentence.isFilled, Stmt.areFilled, Bool.and_eq_true] at filled ihFirst ihRest
      exact (ihFirst filled.1).append (ihRest filled.2)
  | body colonKind _ inner closingKind ihInner =>
      simp only [Sentence.isFilled, Bool.and_eq_true] at filled ihInner
      have someValue := filled.1
      exact Filled.body colonKind (by simpa using someValue) inner closingKind (ihInner filled.2)
  | noArm => exact filled_nil
  | arm wordKind condition _ _ ihBody ihArms =>
      simp only [Sentence.isFilled, Stmt.armsAreFilled, Bool.and_eq_true] at filled ihBody ihArms
      exact (condition.filled.append ((ihBody filled.1).append (ihArms filled.2))).cons wordKind
        (by decide)
  | noOtherwise => exact filled_nil
  | otherwise wordKind _ ihBody => exact (ihBody filled).cons wordKind (by decide)

end Grammar

/-! ### Programs -/

theorem derives_of_parsed {depth : Nat} {tokens : List Token} {program : Program}
    (parsed : parseWithin depth tokens = .ok program) :
    ∃ follow, Grammar.Derives (.statements program.statements) (beforeEnd tokens) follow := by
  obtain ⟨rest, read⟩ := parseWithin_eq_ok parsed
  obtain ⟨taken, split, derives⟩ :=
    Parser.sound_statementsWithin (Parser.sound_statement depth) tokens tokens _ _ read
  have ended : Grammar.AtEnd rest :=
    Parser.statementsWithin_stop (Parser.sound_statement depth) _ _ _ _ (Nat.le_refl _) read
  have inside : ∀ token ∈ taken, token.kind ≠ .endOfSource := by
    intro token member isFinal
    have known := derives.proper.kinds token member
    rw [isFinal] at known
    revert known
    decide
  refine ⟨rest, ?_⟩
  rw [split, (beforeEnd_append inside ended).1]
  exact derives

/-- Where a program has a block that is opened and closed at once, a colon comes before it, and a
block of the program is empty. -/
theorem not_isFilled_of_parseWithin {depth : Nat} {front rest : List Token} {opening closing : Token}
    {program : Program} (inside : ∀ token ∈ front, token.kind ≠ .endOfSource)
    (opens : opening.kind = .indent) (closes : closing.kind = .dedent)
    (parsed : parseWithin depth (front ++ opening :: closing :: rest) = .ok program) :
    program.isFilled = false ∧ ∃ colon ∈ front.getLast?, colon.kind = .symbol .colon := by
  have before : beforeEnd (front ++ opening :: closing :: rest) =
      front ++ opening :: closing :: beforeEnd rest := by
    have allInside : ∀ token ∈ front, decide (token.kind ≠ .endOfSource) = true :=
      fun token member => decide_eq_true (inside token member)
    rw [beforeEnd, List.takeWhile_append_of_pos allInside, List.takeWhile_cons_of_pos (by simp [opens]),
      List.takeWhile_cons_of_pos (by simp [closes])]
    rfl
  obtain ⟨follow, derives⟩ := derives_of_parsed parsed
  rw [before] at derives
  constructor
  · by_contra someEmpty
    have filled := derives.filled ((Bool.not_eq_false _).mp someEmpty)
    have apart := (List.isChain_append.mp filled.apart).2.1
    exact (List.isChain_cons_cons.mp apart).1 ⟨opens, closes⟩
  · obtain ⟨most, colon, rfl, isColon⟩ := derives.proper.opens front opening _ rfl opens
    exact ⟨colon, List.getLast?_concat, isColon⟩

/-- The tokens of a source text are refused for their syntax, or because they nest deeper than the
reading may; that takes as many tokens. -/
theorem fault_of_tokenize {source : String} {tokens : List Token} (lexed : tokenize source = .ok tokens)
    {level : Nat} {failure : ParseFailure} (failed : parseWithin level tokens = .error failure)
    (deep : tokens.length ≤ level) : failure.fault.isSyntactic = true := by
  obtain ⟨final, split, isFinal, _⟩ := tokenize_ends lexed
  have lengths := congrArg List.length split
  rw [List.length_append, List.length_singleton] at lengths
  rw [split] at failed
  rcases Parser.Confined.ends isFinal
      (fun more => Parser.confined_program ⟨final, final, more, isFinal⟩ isFinal level)
      (beforeEnd tokens) with ⟨program, left, _, ends⟩ | ⟨fault, left, _, allowed, ends⟩
  · rw [parseWithin_eq_map (by simp), ends []] at failed
    cases failed
  · rw [parseWithin_eq_map (by simp), ends []] at failed
    cases failed
    rcases allowed with syntactic | ⟨_, shallow⟩
    · exact syntactic
    · omega

/-! ### Widths that no open block has -/

namespace Lexing

theorem closeWider_suffix (width : Nat) (widths : List Nat) :
    (closeWider width widths).2 <:+ widths := by
  induction widths with
  | nil => exact List.suffix_refl _
  | cons top others ih =>
      rw [closeWider]
      split
      · exact ih.trans (List.suffix_cons top others)
      · exact List.suffix_refl _

theorem headD_closeWider_le (width : Nat) (widths : List Nat) :
    (closeWider width widths).2.headD 0 ≤ width := by
  induction widths with
  | nil => exact Nat.zero_le width
  | cons top others ih =>
      rw [closeWider]
      split
      · exact ih
      · rename_i notWider
        exact Nat.le_of_not_lt notWider

/-- A line that is narrower than the innermost block, and whose width no open block has, opens a
block and then closes others. -/
theorem Nested.layout_unlisted {widths : List Nat} (nested : Nested widths) {width : Nat}
    (narrower : width < widths.headD 0) (unlisted : width ∉ widths) (line : Nat) :
    ∃ rest, (Lexing.layout line width widths).1 =
      Token.opening line :: Token.closing line :: rest := by
  obtain ⟨outer, _⟩ := nested.closeWider width
  have wider : (Lexing.closeWider width widths).2.headD 0 < width := by
    have above := headD_closeWider_le width widths
    have suffix := closeWider_suffix width widths
    cases kept : (Lexing.closeWider width widths).2 with
    | nil => exact absurd kept outer.ne_nil
    | cons top others =>
        rw [kept] at above suffix
        refine Nat.lt_of_le_of_ne above ?_
        rintro rfl
        exact unlisted (suffix.subset List.mem_cons_self)
  have some : ∃ count, (Lexing.closeWider width widths).1 = count + 1 := by
    cases widths with
    | nil => cases nested.bottom
    | cons top others =>
        have isWider : width < top := narrower
        rw [Lexing.closeWider, if_pos isWider]
        exact ⟨_, rfl⟩
  obtain ⟨count, closes⟩ := some
  refine ⟨List.replicate count (Token.closing line), ?_⟩
  rw [Lexing.layout]
  dsimp only
  rw [if_pos wider, closes]
  rfl

end Lexing

/-- A line that is narrower than the innermost open block, and whose width no open block has, opens a
block and closes it at once. So the source text is refused, and if the reading may nest deep enough
it is refused for the syntax; or else the line comes right behind a colon, and a block of the program
is empty. -/
theorem unlisted_width_read {source : String} {count : Nat} {row : List Char}
    (isRow : (Text.lines source.toList)[count]? = some row)
    (narrower : Lexing.indentation row < (Lexing.reachedBehind source count).widths.headD 0)
    (unlisted : Lexing.indentation row ∉ (Lexing.reachedBehind source count).widths)
    {tokens : List Token} (lexed : tokenize source = .ok tokens) :
    (∃ rest, tokens = (Lexing.reachedBehind source count).tokens ++
      Token.opening (1 + count) :: Token.closing (1 + count) :: rest) ∧
    ∀ level,
      (∃ failure, parseWithin level tokens = .error failure ∧
        (tokens.length ≤ level → failure.fault.isSyntactic = true)) ∨
      ∃ program, parseWithin level tokens = .ok program ∧ program.isFilled = false ∧
        ∃ colon ∈ (Lexing.reachedBehind source count).tokens.getLast?,
          colon.kind = .symbol .colon := by
  obtain ⟨bound, isThere⟩ := List.getElem?_eq_some_iff.mp isRow
  have rows : Text.lines source.toList =
      (Text.lines source.toList).take count ++ row :: (Text.lines source.toList).drop (count + 1) := by
    rw [← isThere, List.getElem_cons_drop, List.take_append_drop]
  have length : ((Text.lines source.toList).take count).length = count :=
    List.length_take_of_le (Nat.le_of_lt bound)
  obtain ⟨noFault, same⟩ := tokenize_eq_ok_iff.mp lexed
  have clean := Lexing.cut_fault_eq_none_iff.mp noFault
  obtain ⟨nested, leads, _⟩ := Lexing.nested_zero.reach (Nat.le_refl 1)
    ((Text.lines source.toList).take count)
  have split : ∃ rest, tokens = (Lexing.reachedBehind source count).tokens ++
      Token.opening (1 + count) :: Token.closing (1 + count) :: rest := by
    obtain ⟨others, opens⟩ := nested.layout_unlisted narrower unlisted (1 + count)
    rw [rows, Lexing.cut_append_of_clean fun row member => clean row (List.mem_of_mem_take member),
      length, Lexing.cut_cons_of_clean (clean row (List.mem_of_getElem? isRow)), opens] at same
    exact ⟨_, same.symm⟩
  refine ⟨split, ?_⟩
  obtain ⟨rest, rfl⟩ := split
  intro level
  cases parsed : parseWithin level _ with
  | error failure => exact .inl ⟨failure, rfl, fault_of_tokenize lexed parsed⟩
  | ok program =>
      obtain ⟨empty, behindColon⟩ := not_isFilled_of_parseWithin leads.inside rfl rfl parsed
      exact .inr ⟨program, rfl, empty, behindColon⟩

theorem unlisted_width_read_stepsBack :
    (Text.lines stepsBack.toList)[2]? = some "    b".toList ∧
      (Lexing.reachedBehind stepsBack 2).widths = [8, 0] ∧ Lexing.indentation "    b".toList = 4 ∧
      ∀ level, 12 ≤ level →
        ∃ failure, parseWithin level (Lexer.new stepsBack).tokenize.1.tokens = .error failure ∧
          failure.fault.isSyntactic = true := by
  have isRow : (Text.lines stepsBack.toList)[2]? = some "    b".toList := by decide +kernel
  have widths : (Lexing.reachedBehind stepsBack 2).widths = [8, 0] := by decide +kernel
  have width : Lexing.indentation "    b".toList = 4 := by decide +kernel
  have lexed : tokenize stepsBack = .ok (Lexer.new stepsBack).tokenize.1.tokens :=
    tokenize_eq_ok_iff.mpr ⟨by decide +kernel, rfl⟩
  have read := @unlisted_width_read stepsBack 2 "    b".toList isRow
    (by rw [widths, width]; decide) (by rw [widths, width]; decide) _ lexed
  refine ⟨isRow, widths, width, ?_⟩
  intro level deep
  rcases read.2 level with ⟨failure, failed, syntactic⟩ | ⟨_, _, _, colon, isLast, isColon⟩
  · have length : (Lexer.new stepsBack).tokenize.1.tokens.length = 12 := by decide +kernel
    exact ⟨failure, failed, syntactic (by rw [length]; exact deep)⟩
  · have last : (Lexing.reachedBehind stepsBack 2).tokens.getLast?.map Token.kind =
        some .identifier := by decide +kernel
    rw [Option.mem_def.mp isLast, Option.map_some, isColon] at last
    cases last

/-- A source text whose third line goes back, right behind the head of a branch, to a width that no
open block has. -/
def stepsBackFromHead : String :=
  "if (1):\n        if (2):\n    printline(1)\n"

/-- The line is read into the outer branch, behind an inner one with an empty block. -/
theorem unlisted_width_accepted :
    (Text.lines stepsBackFromHead.toList)[2]? = some "    printline(1)".toList ∧
      (Lexing.reachedBehind stepsBackFromHead 2).widths = [8, 0] ∧
      Lexing.indentation "    printline(1)".toList = 4 ∧
      (compile stepsBackFromHead).toOption.map Program.isFilled = some false := by
  decide +kernel

end IndentScript
