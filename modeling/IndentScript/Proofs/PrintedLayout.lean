import IndentScript.Proofs.LineLayout
import IndentScript.Proofs.Printer

/-!
Cutting up a printed program. Behind every line the stack of open blocks holds the multiples of
four up to the indentation of that line, so that the blocks of the program and the blocks that
the lexer opens and closes are the same.

Tokens are compared without the numbers of their lines: the token that closes a block has the
number of the line after it.
-/

namespace IndentScript

open Piece (space word sign name quoted numeral tokensOf)

/-! ### Tokens of a program -/

def Token.unplaced (token : Token) : Token :=
  { token with line := 0 }

def enclosed (tokens : List Token) : List Token :=
  Token.opening 0 :: tokens ++ [Token.closing 0]

mutual

def Stmt.innerTokens : Stmt → List Token
  | .branch _ body arms otherwise =>
    enclosed (Stmt.tokens body) ++ Stmt.armTokens arms ++ Stmt.otherwiseTokens otherwise
  | .count _ _ body => enclosed (Stmt.tokens body)
  | .loop _ body => enclosed (Stmt.tokens body)
  | .define _ _ body => enclosed (Stmt.tokens body)
  | _ => []

def Stmt.tokens : List Stmt → List Token
  | [] => []
  | statement :: rest => tokensOf 0 statement.head ++ statement.innerTokens ++ Stmt.tokens rest

def Stmt.armTokens : List (Expr × List Stmt) → List Token
  | [] => []
  | (condition, body) :: rest =>
    tokensOf 0 (conditionPieces .elifWord condition) ++ enclosed (Stmt.tokens body)
      ++ Stmt.armTokens rest

def Stmt.otherwiseTokens : Option (List Stmt) → List Token
  | none => []
  | some body => tokensOf 0 [word .elseWord, sign .colon] ++ enclosed (Stmt.tokens body)

end

private theorem map_unplaced_tokensOf (line : Nat) (pieces : List Piece) :
    (tokensOf line pieces).map Token.unplaced = tokensOf 0 pieces := by
  induction pieces with
  | nil => rfl
  | cons piece rest ih =>
      cases piece with
      | space => exact ih
      | _ => exact congrArg (_ :: ·) ih

/-! ### Lines of the printed text -/

private theorem PrintedLine.Neat.text_unbroken {line : PrintedLine} (neat : line.Neat) :
    ∀ c ∈ line.text, Text.isLineBreak c = false := by
  intro c member
  rcases List.mem_append.mp member with inIndentation | inPieces
  · rw [List.eq_of_mem_replicate inIndentation]
    decide
  · exact Piece.textOf_not_isLineBreak neat.1 c inPieces

private theorem lines_print (lines : List PrintedLine) (neat : ∀ line ∈ lines, line.Neat) :
    Text.lines (lines.flatMap fun line => line.text ++ ['\n']) = lines.map PrintedLine.text := by
  induction lines with
  | nil => rfl
  | cons line rest ih =>
      have others := ih fun other member => neat other (List.mem_cons_of_mem line member)
      rw [List.flatMap_cons, List.append_assoc, List.singleton_append,
        Text.lines_append_lineFeed _ _ (neat line List.mem_cons_self).text_unbroken, others,
        List.map_cons]

private theorem PrintedLine.Neat.indentation_text {line : PrintedLine} (neat : line.Neat) :
    Lexing.indentation line.text = 4 * line.level := by
  have visible := Piece.textOf_head_not_isBlank neat.1 neat.2
  have spaces : ∀ c ∈ List.replicate (4 * line.level) ' ',
      (Text.isBlank c && decide (c ≠ '\t')) = true := by
    intro c member
    rw [List.eq_of_mem_replicate member]
    decide
  rw [Lexing.indentation, PrintedLine.text, List.takeWhile_append_of_pos spaces]
  cases characters : Piece.textOf line.pieces with
  | nil => rw [List.takeWhile_nil, List.append_nil, List.length_replicate]
  | cons first others =>
      rw [characters] at visible
      rw [List.takeWhile_cons_of_neg (by simp [visible first rfl]), List.append_nil,
        List.length_replicate]

private theorem PrintedLine.Neat.scan_text {line : PrintedLine} (neat : line.Neat) (next : Nat) :
    Lexing.scan next (line.text.drop (4 * line.level)) = (tokensOf next line.pieces, none) := by
  have dropped : line.text.drop (4 * line.level) = Piece.textOf line.pieces := by
    rw [PrintedLine.text]
    exact List.drop_left' (List.length_replicate)
  rw [dropped]
  exact Piece.scan_textOf next line.pieces neat.1

/-! ### The stack of open blocks -/

def widthsAt : Nat → List Nat
  | 0 => [0]
  | level + 1 => 4 * (level + 1) :: widthsAt level

private theorem length_widthsAt (level : Nat) : (widthsAt level).length = level + 1 := by
  induction level with
  | zero => rfl
  | succ level ih => rw [widthsAt, List.length_cons, ih]

private theorem headD_widthsAt (level : Nat) : (widthsAt level).headD 0 = 4 * level := by
  cases level <;> rfl

private theorem closeWider_widthsAt_of_le {width level : Nat} (wide : 4 * level ≤ width) :
    Lexing.closeWider width (widthsAt level) = (0, widthsAt level) := by
  cases level with
  | zero => rw [widthsAt, Lexing.closeWider, if_neg (Nat.not_lt_zero width)]
  | succ level => rw [widthsAt, Lexing.closeWider, if_neg (Nat.not_lt.mpr wide)]

private theorem closeWider_widthsAt (level count : Nat) :
    Lexing.closeWider (4 * level) (widthsAt (level + count)) = (count, widthsAt level) := by
  induction count with
  | zero => exact closeWider_widthsAt_of_le (Nat.le_refl _)
  | succ count ih =>
      rw [Nat.add_succ, widthsAt, Lexing.closeWider, if_pos (by omega), ih]

/-- A line that is not indented deeper closes the blocks that it does not stand in. -/
private theorem layout_of_le (line : Nat) (level count : Nat) :
    Lexing.layout line (4 * level) (widthsAt (level + count)) =
      (List.replicate count (Token.closing line), widthsAt level) := by
  rw [Lexing.layout, closeWider_widthsAt]
  dsimp only
  rw [headD_widthsAt, if_neg (Nat.lt_irrefl _)]

private theorem layout_same (line level : Nat) :
    Lexing.layout line (4 * level) (widthsAt level) = ([], widthsAt level) :=
  layout_of_le line level 0

/-- A line that is indented by one step more opens a block. -/
private theorem layout_of_succ (line level : Nat) :
    Lexing.layout line (4 * (level + 1)) (widthsAt level) =
      ([Token.opening line], widthsAt (level + 1)) := by
  rw [Lexing.layout, closeWider_widthsAt_of_le (by omega)]
  dsimp only
  rw [headD_widthsAt, if_pos (by omega)]
  rfl

/-! ### Lines one after another -/

/-- From the stack of the given level the lines are cut up into the tokens, whatever the numbers
of the lines are. -/
def Emits (level : Nat) (lines : List PrintedLine) (tokens : List Token) : Prop :=
  ∀ line next,
    (Lexing.cut line next (widthsAt level) (lines.map PrintedLine.text)).fault = none ∧
      (Lexing.cut line next (widthsAt level) (lines.map PrintedLine.text)).tokens.map
        Token.unplaced = tokens

/-- The lines go on in none but the blocks of the given level. -/
def Settled (level : Nat) (lines : List PrintedLine) : Prop :=
  ∀ line ∈ lines.head?, line.level ≤ level

private theorem cut_neat {first : PrintedLine} (neat : first.Neat) (line next : Nat)
    (widths : List Nat) (rest : List (List Char)) :
    Lexing.cut line next widths (first.text :: rest) =
      let (layoutTokens, inner) := Lexing.layout next (4 * first.level) widths
      let others := Lexing.cut next (next + 1) inner rest
      { others with tokens := layoutTokens ++ tokensOf next first.pieces ++ others.tokens } := by
  rw [Lexing.cut, neat.indentation_text, neat.scan_text]

private theorem emits_nil : Emits 0 [] [Token.final 0] :=
  fun _ _ => ⟨rfl, rfl⟩

private theorem emits_line {level : Nat} {pieces : List Piece} {rest : List PrintedLine}
    {tokens : List Token} (neat : PrintedLine.Neat ⟨level, pieces⟩)
    (emits : Emits level rest tokens) :
    Emits level (⟨level, pieces⟩ :: rest) (tokensOf 0 pieces ++ tokens) := by
  intro line next
  obtain ⟨noFault, sameTokens⟩ := emits next (next + 1)
  rw [List.map_cons, cut_neat neat]
  dsimp only
  rw [layout_same]
  refine ⟨noFault, ?_⟩
  rw [List.map_append, sameTokens]
  exact congrArg (· ++ tokens) (map_unplaced_tokensOf next pieces)

private theorem emits_opening {level : Nat} {first : PrintedLine} {rest : List PrintedLine}
    {tokens : List Token} (neat : first.Neat) (deeper : first.level = level + 1)
    (emits : Emits (level + 1) (first :: rest) tokens) :
    Emits level (first :: rest) (Token.opening 0 :: tokens) := by
  intro line next
  obtain ⟨noFault, sameTokens⟩ := emits line next
  rw [List.map_cons, cut_neat neat, deeper, layout_same] at noFault sameTokens
  rw [List.map_cons, cut_neat neat, deeper, layout_of_succ]
  exact ⟨noFault, congrArg (Token.opening 0 :: ·) sameTokens⟩

private theorem cut_widthsAt_succ {level : Nat} {lines : List PrintedLine}
    (settled : Settled level lines) (neat : ∀ line ∈ lines, line.Neat) (line next : Nat) :
    ∃ place, Lexing.cut line next (widthsAt (level + 1)) (lines.map PrintedLine.text) =
      { Lexing.cut line next (widthsAt level) (lines.map PrintedLine.text) with
        tokens := Token.closing place ::
          (Lexing.cut line next (widthsAt level) (lines.map PrintedLine.text)).tokens } := by
  cases lines with
  | nil =>
      refine ⟨line, ?_⟩
      simp only [List.map_nil, Lexing.cut, length_widthsAt, Nat.add_sub_cancel]
      rw [widthsAt, List.drop_succ_cons, List.replicate_succ, List.cons_append]
  | cons first rest =>
      refine ⟨next, ?_⟩
      obtain ⟨count, same⟩ := Nat.exists_eq_add_of_le (settled first rfl)
      rw [List.map_cons, cut_neat (neat first List.mem_cons_self),
        cut_neat (neat first List.mem_cons_self), same, Nat.add_assoc, layout_of_le, layout_of_le,
        List.replicate_succ]
      rfl

private theorem emits_closing {level : Nat} {lines : List PrintedLine} {tokens : List Token}
    (settled : Settled level lines) (neat : ∀ line ∈ lines, line.Neat)
    (emits : Emits level lines tokens) :
    Emits (level + 1) lines (Token.closing 0 :: tokens) := by
  intro line next
  obtain ⟨noFault, sameTokens⟩ := emits line next
  obtain ⟨place, same⟩ := cut_widthsAt_succ settled neat line next
  rw [same]
  exact ⟨noFault, congrArg (Token.closing 0 :: ·) sameTokens⟩

private theorem Settled.succ {level : Nat} {lines : List PrintedLine}
    (settled : Settled level lines) : Settled (level + 1) lines :=
  fun line member => Nat.le_succ_of_le (settled line member)

private theorem Settled.append {level : Nat} {lines more : List PrintedLine}
    (settled : Settled level lines) (settledMore : Settled level more) :
    Settled level (lines ++ more) := by
  cases lines with
  | nil => exact settledMore
  | cons line rest => exact settled

/-- Whatever lines come next, the given ones are cut up into the given tokens, and the stack
behind them is the one before them. -/
private def Extends (level : Nat) (lines : List PrintedLine) (tokens : List Token) : Prop :=
  ∀ more rest, Settled level more → (∀ line ∈ more, line.Neat) → Emits level more rest →
    Emits level (lines ++ more) (tokens ++ rest)

private theorem extends_nil (level : Nat) : Extends level [] [] :=
  fun _ _ _ _ emits => emits

private theorem Extends.append {level : Nat} {lines others : List PrintedLine}
    {tokens otherTokens : List Token} (first : Extends level lines tokens)
    (second : Extends level others otherTokens) (settled : Settled level others)
    (neat : ∀ line ∈ others, line.Neat) :
    Extends level (lines ++ others) (tokens ++ otherTokens) := by
  intro more rest settledMore neatMore emits
  rw [List.append_assoc, List.append_assoc]
  exact first _ _ (settled.append settledMore) (List.forall_mem_append.mpr ⟨neat, neatMore⟩)
    (second more rest settledMore neatMore emits)

private theorem Extends.line {level : Nat} {pieces : List Piece} {lines : List PrintedLine}
    {tokens : List Token} (inner : Extends level lines tokens)
    (neat : PrintedLine.Neat ⟨level, pieces⟩) :
    Extends level (⟨level, pieces⟩ :: lines) (tokensOf 0 pieces ++ tokens) := by
  intro more rest settled neatMore emits
  rw [List.append_assoc]
  exact emits_line neat (inner more rest settled neatMore emits)

private theorem Extends.enclosed {level : Nat} {body : List Stmt}
    (block : Extends (level + 1) (Stmt.lines (level + 1) body) (Stmt.tokens body))
    (nonempty : (!body.isEmpty) = true) (printable : Stmt.arePrintable body = true) :
    Extends level (Stmt.lines (level + 1) body) (enclosed (Stmt.tokens body)) := by
  intro more rest settled neat emits
  have inside := block more _ settled.succ neat (emits_closing settled neat emits)
  simp only [IndentScript.enclosed, List.cons_append, List.append_assoc, List.nil_append]
  cases body with
  | nil => cases nonempty
  | cons statement others =>
      refine emits_opening ?_ rfl inside
      exact Stmt.neat_lines (level + 1) (statement :: others) printable _ List.mem_cons_self

private theorem settled_of_head {level : Nat} {pieces : List Piece} (rest : List PrintedLine) :
    Settled level (⟨level, pieces⟩ :: rest) := by
  intro line member
  cases member
  exact Nat.le_refl level

private theorem settled_lines (level : Nat) (statements : List Stmt) :
    Settled level (Stmt.lines level statements) := by
  cases statements with
  | nil => exact fun _ member => by cases member
  | cons statement rest => exact settled_of_head _

private theorem settled_armLines (level : Nat) (arms : List (Expr × List Stmt)) :
    Settled level (Stmt.armLines level arms) := by
  cases arms with
  | nil => exact fun _ member => by cases member
  | cons arm rest => exact settled_of_head _

private theorem settled_otherwiseLines (level : Nat) (otherwise : Option (List Stmt)) :
    Settled level (Stmt.otherwiseLines level otherwise) := by
  cases otherwise with
  | none => exact fun _ member => by cases member
  | some body => exact settled_of_head _

mutual

private theorem extends_innerLines (level : Nat) : (statement : Stmt) →
    statement.isPrintable = true →
      Extends level (statement.innerLines level) statement.innerTokens
  | .branch condition body arms otherwise, printable => by
      simp only [Stmt.isPrintable, Bool.and_eq_true] at printable
      obtain ⟨⟨⟨_, nonempty, bodyPrintable⟩, armsPrintable⟩, otherwisePrintable⟩ := printable
      have block := (extends_lines (level + 1) body bodyPrintable).enclosed nonempty bodyPrintable
      have withArms := block.append (extends_armLines level arms armsPrintable)
        (settled_armLines level arms) (Stmt.neat_armLines level arms armsPrintable)
      exact withArms.append (extends_otherwiseLines level otherwise otherwisePrintable)
        (settled_otherwiseLines level otherwise)
        (Stmt.neat_otherwiseLines level otherwise otherwisePrintable)
  | .count _ _ body, printable => by
      simp only [Stmt.isPrintable, Bool.and_eq_true] at printable
      exact (extends_lines (level + 1) body printable.2.2).enclosed printable.2.1 printable.2.2
  | .loop _ body, printable => by
      simp only [Stmt.isPrintable, Bool.and_eq_true] at printable
      exact (extends_lines (level + 1) body printable.2.2).enclosed printable.2.1 printable.2.2
  | .define _ _ body, printable => by
      simp only [Stmt.isPrintable, Bool.and_eq_true] at printable
      exact (extends_lines (level + 1) body printable.2.2).enclosed printable.2.1 printable.2.2
  | .print _, _ | .assign _ _, _ | .leave, _ | .next, _ | .result _, _ | .load _, _
  | .evaluate _, _ => extends_nil level

private theorem extends_lines (level : Nat) : (statements : List Stmt) →
    Stmt.arePrintable statements = true →
      Extends level (Stmt.lines level statements) (Stmt.tokens statements)
  | [], _ => extends_nil level
  | statement :: rest, printable => by
      simp only [Stmt.arePrintable, Bool.and_eq_true] at printable
      have neat : PrintedLine.Neat ⟨level, statement.head⟩ :=
        ⟨statement.tidy_head printable.1, statement.head_head⟩
      have first := (extends_innerLines level statement printable.1).line neat
      exact first.append (extends_lines level rest printable.2) (settled_lines level rest)
        (Stmt.neat_lines level rest printable.2)

private theorem extends_armLines (level : Nat) : (arms : List (Expr × List Stmt)) →
    Stmt.armsArePrintable arms = true →
      Extends level (Stmt.armLines level arms) (Stmt.armTokens arms)
  | [], _ => extends_nil level
  | (condition, body) :: rest, printable => by
      have neat := Stmt.neat_armLines level ((condition, body) :: rest) printable
      simp only [Stmt.armsArePrintable, Bool.and_eq_true] at printable
      obtain ⟨⟨_, nonempty, bodyPrintable⟩, restPrintable⟩ := printable
      have block := (extends_lines (level + 1) body bodyPrintable).enclosed nonempty bodyPrintable
      have first := block.line (neat _ List.mem_cons_self)
      exact first.append (extends_armLines level rest restPrintable) (settled_armLines level rest)
        (Stmt.neat_armLines level rest restPrintable)

private theorem extends_otherwiseLines (level : Nat) : (otherwise : Option (List Stmt)) →
    Stmt.otherwiseIsPrintable otherwise = true →
      Extends level (Stmt.otherwiseLines level otherwise) (Stmt.otherwiseTokens otherwise)
  | none, _ => extends_nil level
  | some body, printable => by
      have neat := Stmt.neat_otherwiseLines level (some body) printable
      obtain ⟨nonempty, bodyPrintable⟩ := Bool.and_eq_true_iff.mp printable
      have block := (extends_lines (level + 1) body bodyPrintable).enclosed nonempty bodyPrintable
      exact block.line (neat _ List.mem_cons_self)

end

/-- The source text of a printable program is cut up into the tokens of the program. -/
theorem tokenize_print (program : Program) (printable : program.isPrintable = true) :
    ∃ tokens, tokenize program.print = .ok tokens ∧
      tokens.map Token.unplaced = Stmt.tokens program.statements ++ [Token.final 0] := by
  have neat := Stmt.neat_lines 0 program.statements printable
  have emits := extends_lines 0 program.statements printable [] _
    (by intro line member; cases member) (List.forall_mem_nil _) emits_nil
  rw [List.append_nil] at emits
  obtain ⟨noFault, sameTokens⟩ := emits 1 1
  have sameLines : Text.lines program.print.toList =
      (Stmt.lines 0 program.statements).map PrintedLine.text := by
    rw [Program.print, String.toList_ofList, lines_print _ neat]
  rw [← sameLines] at noFault sameTokens
  exact ⟨_, tokenize_eq_ok_iff.mpr ⟨noFault, rfl⟩, sameTokens⟩

end IndentScript
