import IndentScript.Program.Parser
import IndentScript.Proofs.Rendering

/-!
Printing of programs. Every statement starts a line of its own, indented by four spaces for each
block around it. Every variable and every operation stands in parentheses wherever it occurs, so
that no statement ends in an identifier and operators never lie next to each other.

A program is printable when it is built from what a source text can say: the literals are
integers that are not negative, texts and the truth value false, the operators are the ten of the
language, a table stands only where a name is given to it and has distinct keys, and no block is
empty.
-/

namespace IndentScript

open Piece (space word sign name quoted numeral)

/-! ### Expressions -/

def commaSeparated : List (List Piece) → List Piece
  | [] => []
  | [item] => item
  | item :: rest => item ++ sign .comma :: space :: commaSeparated rest

/-- An operator of the language. One that is none has no sign. -/
def Operator.pieces : Operator → List Piece
  | plus => [sign .plus]
  | minus => [sign .minus]
  | times => [sign .times]
  | divide => [sign .slash]
  | percent => [sign .percent]
  | equals => [sign .equals]
  | greater => [sign .greater]
  | less => [sign .less]
  | and => [word .andWord]
  | or => [word .orWord]
  | unknown _ => []

mutual

def Expr.pieces : Expr → List Piece
  | .literal (.int value) => [numeral value.toNat]
  | .literal (.text content) => [quoted content]
  | .literal (.bool _) => [word .falseWord]
  | .variable identifier => [sign .openParen, name identifier, sign .closeParen]
  | .binary left operator right =>
    sign .openParen :: left.pieces ++ space :: operator.pieces ++ space :: right.pieces
      ++ [sign .closeParen]
  | .call callee arguments =>
    name callee :: sign .openParen :: commaSeparated (Expr.piecesEach arguments)
      ++ [sign .closeParen]
  | _ => []

def Expr.piecesEach : List Expr → List (List Piece)
  | [] => []
  | expression :: rest => expression.pieces :: Expr.piecesEach rest

end

mutual

def Expr.isPrintable : Expr → Bool
  | .literal (.int value) =>
    0 ≤ value && (Nat.toDigits 10 value.toNat).length ≤ Number.digitLimit
  | .literal (.text content) => isQuotable content
  | .literal (.bool value) => !value
  | .variable identifier => isIdentifier identifier
  | .binary left operator right =>
    left.isPrintable && operator ∈ Operator.all && right.isPrintable
  | .call callee arguments => isIdentifier callee && Expr.arePrintable arguments
  | _ => false

def Expr.arePrintable : List Expr → Bool
  | [] => true
  | expression :: rest => expression.isPrintable && Expr.arePrintable rest

end

mutual

/-- How deep an operand nests: the number of parentheses around its innermost part. -/
def Expr.nesting : Expr → Nat
  | .variable _ => 1
  | .binary left _ right => max left.nesting right.nesting + 1
  | .call _ arguments => Expr.deepest arguments + 1
  | _ => 0

def Expr.deepest : List Expr → Nat
  | [] => 0
  | expression :: rest => max expression.nesting (Expr.deepest rest)

end

/-! ### Statements -/

def conditionPieces (keyword : Keyword) (condition : Expr) : List Piece :=
  word keyword :: space :: sign .openParen :: condition.pieces
    ++ [sign .closeParen, sign .colon]

def fieldPieces (field : String × Expr) : List Piece :=
  quoted field.1 :: sign .colon :: space :: field.2.pieces

def Stmt.head : Stmt → List Piece
  | .print arguments =>
    word .printlineWord :: sign .openParen :: commaSeparated (Expr.piecesEach arguments)
      ++ [sign .closeParen]
  | .assign identifier (.table fields) =>
    word .tableWord :: space :: name identifier :: space :: sign .assign :: space
      :: sign .openBrace :: commaSeparated (fields.map fieldPieces) ++ [sign .closeBrace]
  | .assign identifier value =>
    word .localWord :: space :: name identifier :: space :: sign .assign :: space :: value.pieces
  | .branch condition _ _ _ => conditionPieces .ifWord condition
  | .count identifier limit _ =>
    word .forWord :: space :: name identifier :: space :: word .inWord :: space
      :: word .rangeWord :: sign .openParen :: limit.pieces ++ [sign .closeParen, sign .colon]
  | .loop condition _ => conditionPieces .whileWord condition
  | .leave => [word .breakWord]
  | .next => [word .continueWord]
  | .define identifier parameters _ =>
    word .funcWord :: space :: name identifier :: sign .openParen
      :: commaSeparated (parameters.map fun parameter => [name parameter])
      ++ [sign .closeParen, sign .colon]
  | .result none => [word .returnWord]
  | .result (some value) => word .returnWord :: space :: value.pieces
  | .load library => [word .importWord, space, quoted library]
  | .evaluate value => value.pieces

/-- A line of a printed program: how many blocks it stands in, and its pieces. -/
structure PrintedLine where
  level : Nat
  pieces : List Piece

mutual

def Stmt.innerLines (level : Nat) : Stmt → List PrintedLine
  | .branch _ body arms otherwise =>
    Stmt.lines (level + 1) body ++ Stmt.armLines level arms ++ Stmt.otherwiseLines level otherwise
  | .count _ _ body => Stmt.lines (level + 1) body
  | .loop _ body => Stmt.lines (level + 1) body
  | .define _ _ body => Stmt.lines (level + 1) body
  | _ => []

def Stmt.lines (level : Nat) : List Stmt → List PrintedLine
  | [] => []
  | statement :: rest =>
    ⟨level, statement.head⟩ :: statement.innerLines level ++ Stmt.lines level rest

def Stmt.armLines (level : Nat) : List (Expr × List Stmt) → List PrintedLine
  | [] => []
  | (condition, body) :: rest =>
    ⟨level, conditionPieces .elifWord condition⟩ :: Stmt.lines (level + 1) body
      ++ Stmt.armLines level rest

def Stmt.otherwiseLines (level : Nat) : Option (List Stmt) → List PrintedLine
  | none => []
  | some body => ⟨level, [word .elseWord, sign .colon]⟩ :: Stmt.lines (level + 1) body

end

def PrintedLine.text (line : PrintedLine) : List Char :=
  List.replicate (4 * line.level) ' ' ++ Piece.textOf line.pieces

def Program.print (program : Program) : String :=
  String.ofList ((Stmt.lines 0 program.statements).flatMap fun line => line.text ++ ['\n'])

/-! ### What can be printed -/

mutual

def Stmt.isPrintable : Stmt → Bool
  | .print arguments => Expr.arePrintable arguments
  | .assign identifier (.table fields) =>
    isIdentifier identifier && (Entries.names fields).Nodup
      && fields.all fun field => isQuotable field.1 && field.2.isPrintable
  | .assign identifier value => isIdentifier identifier && value.isPrintable
  | .branch condition body arms otherwise =>
    condition.isPrintable && (!body.isEmpty && Stmt.arePrintable body)
      && Stmt.armsArePrintable arms && Stmt.otherwiseIsPrintable otherwise
  | .count identifier limit body =>
    isIdentifier identifier && limit.isPrintable && (!body.isEmpty && Stmt.arePrintable body)
  | .loop condition body => condition.isPrintable && (!body.isEmpty && Stmt.arePrintable body)
  | .leave => true
  | .next => true
  | .define identifier parameters body =>
    isIdentifier identifier && parameters.all isIdentifier
      && (!body.isEmpty && Stmt.arePrintable body)
  | .result none => false
  | .result (some value) => value.isPrintable
  | .load library => isQuotable library
  | .evaluate value => value.isPrintable

def Stmt.arePrintable : List Stmt → Bool
  | [] => true
  | statement :: rest => statement.isPrintable && Stmt.arePrintable rest

def Stmt.armsArePrintable : List (Expr × List Stmt) → Bool
  | [] => true
  | (condition, body) :: rest =>
    condition.isPrintable && (!body.isEmpty && Stmt.arePrintable body)
      && Stmt.armsArePrintable rest

def Stmt.otherwiseIsPrintable : Option (List Stmt) → Bool
  | none => true
  | some body => !body.isEmpty && Stmt.arePrintable body

end

def Program.isPrintable (program : Program) : Bool :=
  Stmt.arePrintable program.statements

mutual

def Stmt.nesting : Stmt → Nat
  | .print arguments => Expr.deepest arguments + 1
  | .assign _ (.table fields) => Expr.deepest (fields.map Prod.snd) + 1
  | .assign _ value => value.nesting + 1
  | .branch condition body arms otherwise =>
    max (max condition.nesting (Stmt.deepest body))
      (max (Stmt.deepestArm arms) (Stmt.deepestOtherwise otherwise)) + 1
  | .count _ limit body => max limit.nesting (Stmt.deepest body) + 1
  | .loop condition body => max condition.nesting (Stmt.deepest body) + 1
  | .define _ _ body => Stmt.deepest body + 1
  | .result (some value) => value.nesting + 1
  | .evaluate value => value.nesting + 1
  | _ => 1

def Stmt.deepest : List Stmt → Nat
  | [] => 0
  | statement :: rest => max statement.nesting (Stmt.deepest rest)

def Stmt.deepestArm : List (Expr × List Stmt) → Nat
  | [] => 0
  | (condition, body) :: rest =>
    max (max condition.nesting (Stmt.deepest body)) (Stmt.deepestArm rest)

def Stmt.deepestOtherwise : Option (List Stmt) → Nat
  | none => 0
  | some body => Stmt.deepest body

end

def Program.nesting (program : Program) : Nat :=
  Stmt.deepest program.statements

/-! ### Printed lines are tidy -/

theorem tidy_commaSeparated (items : List (List Piece)) (tidy : ∀ item ∈ items, Piece.Tidy item) :
    Piece.Tidy (commaSeparated items) := by
  fun_induction commaSeparated items with
  | case1 => exact Piece.tidy_nil
  | case2 item => exact tidy item List.mem_cons_self
  | case3 item rest _ ih =>
      rw [Piece.tidy_append_separator rfl, Piece.tidy_cons_separator rfl]
      exact ⟨tidy item List.mem_cons_self,
        ih fun other member => tidy other (List.mem_cons_of_mem item member)⟩

theorem Operator.tidy_pieces {operator : Operator} (known : operator ∈ Operator.all) :
    Piece.Tidy operator.pieces := by
  simp only [all, List.mem_cons, List.not_mem_nil, or_false] at known
  rcases known with rfl | rfl | rfl | rfl | rfl | rfl | rfl | rfl | rfl | rfl
  all_goals exact (Piece.tidy_singleton _).mpr rfl

mutual

theorem Expr.tidy_pieces : (expression : Expr) → expression.isPrintable = true →
    Piece.Tidy expression.pieces
  | .literal (.int value), printable => by
      simp only [Expr.isPrintable, Bool.and_eq_true] at printable
      exact (Piece.tidy_singleton _).mpr printable.2
  | .literal (.text content), printable => (Piece.tidy_singleton _).mpr printable
  | .literal (.bool _), _ => (Piece.tidy_singleton _).mpr rfl
  | .variable identifier, printable => by
      rw [Expr.pieces, Piece.tidy_cons_separator rfl, Piece.tidy_cons_cons_separator rfl]
      exact ⟨printable, Piece.tidy_nil⟩
  | .binary left operator right, printable => by
      simp only [Expr.isPrintable, Bool.and_eq_true, decide_eq_true_eq] at printable
      simp only [Expr.pieces, List.cons_append, List.append_assoc]
      rw [Piece.tidy_cons_separator rfl, Piece.tidy_append_separator rfl,
        Piece.tidy_append_separator rfl, Piece.tidy_append_separator rfl]
      exact ⟨left.tidy_pieces printable.1.1, Operator.tidy_pieces printable.1.2,
        right.tidy_pieces printable.2, Piece.tidy_nil⟩
  | .call callee arguments, printable => by
      simp only [Expr.isPrintable, Bool.and_eq_true] at printable
      rw [Expr.pieces, List.cons_append, List.cons_append, Piece.tidy_cons_cons_separator rfl,
        Piece.tidy_append_separator rfl]
      exact ⟨printable.1, tidy_commaSeparated _ (Expr.tidy_piecesEach arguments printable.2),
        Piece.tidy_nil⟩

theorem Expr.tidy_piecesEach : (expressions : List Expr) → Expr.arePrintable expressions = true →
    ∀ item ∈ Expr.piecesEach expressions, Piece.Tidy item
  | [], _ => by
      intro item member
      cases member
  | expression :: rest, printable => by
      simp only [Expr.arePrintable, Bool.and_eq_true] at printable
      intro item member
      rcases List.mem_cons.mp member with rfl | inRest
      · exact expression.tidy_pieces printable.1
      · exact Expr.tidy_piecesEach rest printable.2 item inRest

end

theorem Expr.head_pieces (expression : Expr) : expression.pieces.head? ≠ some space := by
  cases expression with
  | literal value => cases value <;> simp [Expr.pieces]
  | _ => simp [Expr.pieces]

/-- A line that is cut up into its tokens and starts where its indentation ends. -/
def PrintedLine.Neat (line : PrintedLine) : Prop :=
  Piece.Tidy line.pieces ∧ line.pieces.head? ≠ some space

private theorem tidy_conditionPieces (keyword : Keyword) {condition : Expr}
    (printable : condition.isPrintable = true) :
    Piece.Tidy (conditionPieces keyword condition) := by
  rw [conditionPieces, List.cons_append, List.cons_append, List.cons_append,
    Piece.tidy_cons_cons_separator rfl, Piece.tidy_cons_separator rfl,
    Piece.tidy_append_separator rfl, Piece.tidy_cons_separator rfl]
  exact ⟨rfl, condition.tidy_pieces printable, Piece.tidy_nil⟩

private theorem tidy_fieldPieces {field : String × Expr} (quotable : isQuotable field.1 = true)
    (printable : field.2.isPrintable = true) : Piece.Tidy (fieldPieces field) := by
  rw [fieldPieces, Piece.tidy_cons_cons_separator rfl, Piece.tidy_cons_separator rfl]
  exact ⟨quotable, field.2.tidy_pieces printable⟩

/-- A row that starts with a word and a space, a name and a space, and a sign of assignment. -/
private theorem tidy_assignment (keyword : Keyword) {identifier : String} {value : List Piece}
    (valid : isIdentifier identifier = true) (tidy : Piece.Tidy value) :
    Piece.Tidy (word keyword :: space :: name identifier :: space :: sign .assign :: space
      :: value) := by
  rw [Piece.tidy_cons_cons_separator rfl, Piece.tidy_cons_cons_separator rfl,
    Piece.tidy_cons_cons_separator rfl]
  exact ⟨rfl, valid, rfl, tidy⟩

theorem Stmt.tidy_head (statement : Stmt) (printable : statement.isPrintable = true) :
    Piece.Tidy statement.head := by
  cases statement with
  | print arguments =>
      rw [Stmt.head, List.cons_append, List.cons_append, Piece.tidy_cons_cons_separator rfl,
        Piece.tidy_append_separator rfl]
      exact ⟨rfl, tidy_commaSeparated _ (Expr.tidy_piecesEach arguments printable), Piece.tidy_nil⟩
  | assign identifier value =>
      cases value with
      | table fields =>
          simp only [Stmt.isPrintable, Bool.and_eq_true, List.all_eq_true] at printable
          simp only [Stmt.head, List.cons_append]
          apply tidy_assignment .tableWord printable.1.1
          rw [Piece.tidy_cons_separator rfl, Piece.tidy_append_separator rfl]
          refine ⟨tidy_commaSeparated _ ?_, Piece.tidy_nil⟩
          intro item member
          obtain ⟨field, inFields, rfl⟩ := List.mem_map.mp member
          have fieldPrintable := printable.2 field inFields
          exact tidy_fieldPieces fieldPrintable.1 fieldPrintable.2
      | _ =>
          simp only [Stmt.isPrintable, Bool.and_eq_true] at printable
          exact tidy_assignment .localWord printable.1 (Expr.tidy_pieces _ printable.2)
  | branch condition body arms otherwise =>
      simp only [Stmt.isPrintable, Bool.and_eq_true] at printable
      exact tidy_conditionPieces .ifWord printable.1.1.1
  | count identifier limit body =>
      simp only [Stmt.isPrintable, Bool.and_eq_true] at printable
      simp only [Stmt.head, List.cons_append]
      rw [Piece.tidy_cons_cons_separator rfl, Piece.tidy_cons_cons_separator rfl,
        Piece.tidy_cons_cons_separator rfl, Piece.tidy_cons_cons_separator rfl,
        Piece.tidy_append_separator rfl, Piece.tidy_cons_separator rfl]
      exact ⟨rfl, printable.1.1, rfl, rfl, limit.tidy_pieces printable.1.2, Piece.tidy_nil⟩
  | loop condition body =>
      simp only [Stmt.isPrintable, Bool.and_eq_true] at printable
      exact tidy_conditionPieces .whileWord printable.1
  | leave => exact (Piece.tidy_singleton _).mpr rfl
  | next => exact (Piece.tidy_singleton _).mpr rfl
  | define identifier parameters body =>
      simp only [Stmt.isPrintable, Bool.and_eq_true, List.all_eq_true] at printable
      simp only [Stmt.head, List.cons_append]
      rw [Piece.tidy_cons_cons_separator rfl, Piece.tidy_cons_cons_separator rfl,
        Piece.tidy_append_separator rfl, Piece.tidy_cons_separator rfl]
      refine ⟨rfl, printable.1.1, tidy_commaSeparated _ ?_, Piece.tidy_nil⟩
      intro item member
      obtain ⟨parameter, inParameters, rfl⟩ := List.mem_map.mp member
      exact (Piece.tidy_singleton _).mpr (printable.1.2 parameter inParameters)
  | result value =>
      cases value with
      | none => cases printable
      | some value =>
          rw [Stmt.head, Piece.tidy_cons_cons_separator rfl]
          exact ⟨rfl, value.tidy_pieces printable⟩
  | load library =>
      rw [Stmt.head, Piece.tidy_cons_cons_separator rfl, Piece.tidy_singleton]
      exact ⟨rfl, printable⟩
  | evaluate value => exact value.tidy_pieces printable

theorem Stmt.head_head (statement : Stmt) : statement.head.head? ≠ some space := by
  cases statement with
  | assign identifier value => cases value <;> simp [Stmt.head]
  | result value => cases value <;> simp [Stmt.head]
  | evaluate value => exact value.head_pieces
  | _ => simp [Stmt.head, conditionPieces]

private theorem neat_head (level : Nat) {statement : Stmt}
    (printable : statement.isPrintable = true) : PrintedLine.Neat ⟨level, statement.head⟩ :=
  ⟨statement.tidy_head printable, statement.head_head⟩

private theorem neat_conditionPieces (level : Nat) (keyword : Keyword) {condition : Expr}
    (printable : condition.isPrintable = true) :
    PrintedLine.Neat ⟨level, conditionPieces keyword condition⟩ :=
  ⟨tidy_conditionPieces keyword printable, by simp [conditionPieces]⟩

private theorem neat_otherwise (level : Nat) :
    PrintedLine.Neat ⟨level, [word .elseWord, sign .colon]⟩ := by
  refine ⟨?_, by simp⟩
  rw [Piece.tidy_cons_cons_separator rfl]
  exact ⟨rfl, Piece.tidy_nil⟩

mutual

theorem Stmt.neat_innerLines (level : Nat) : (statement : Stmt) → statement.isPrintable = true →
    ∀ line ∈ statement.innerLines level, line.Neat
  | .branch condition body arms otherwise, printable => by
      simp only [Stmt.isPrintable, Bool.and_eq_true] at printable
      intro line member
      simp only [Stmt.innerLines, List.mem_append] at member
      rcases member with (inBody | inArms) | inOtherwise
      · exact Stmt.neat_lines (level + 1) body printable.1.1.2.2 line inBody
      · exact Stmt.neat_armLines level arms printable.1.2 line inArms
      · exact Stmt.neat_otherwiseLines level otherwise printable.2 line inOtherwise
  | .count _ _ body, printable => by
      simp only [Stmt.isPrintable, Bool.and_eq_true] at printable
      exact Stmt.neat_lines (level + 1) body printable.2.2
  | .loop _ body, printable => by
      simp only [Stmt.isPrintable, Bool.and_eq_true] at printable
      exact Stmt.neat_lines (level + 1) body printable.2.2
  | .define _ _ body, printable => by
      simp only [Stmt.isPrintable, Bool.and_eq_true] at printable
      exact Stmt.neat_lines (level + 1) body printable.2.2
  | .print _, _ | .assign _ _, _ | .leave, _ | .next, _ | .result _, _ | .load _, _
  | .evaluate _, _ => List.forall_mem_nil _

theorem Stmt.neat_lines (level : Nat) : (statements : List Stmt) →
    Stmt.arePrintable statements = true → ∀ line ∈ Stmt.lines level statements, line.Neat
  | [], _ => List.forall_mem_nil _
  | statement :: rest, printable => by
      simp only [Stmt.arePrintable, Bool.and_eq_true] at printable
      intro line member
      simp only [Stmt.lines, List.cons_append, List.mem_cons, List.mem_append] at member
      rcases member with rfl | inInner | inRest
      · exact neat_head level printable.1
      · exact Stmt.neat_innerLines level statement printable.1 line inInner
      · exact Stmt.neat_lines level rest printable.2 line inRest

theorem Stmt.neat_armLines (level : Nat) : (arms : List (Expr × List Stmt)) →
    Stmt.armsArePrintable arms = true → ∀ line ∈ Stmt.armLines level arms, line.Neat
  | [], _ => List.forall_mem_nil _
  | (condition, body) :: rest, printable => by
      simp only [Stmt.armsArePrintable, Bool.and_eq_true] at printable
      intro line member
      simp only [Stmt.armLines, List.cons_append, List.mem_cons, List.mem_append] at member
      rcases member with rfl | inBody | inRest
      · exact neat_conditionPieces level .elifWord printable.1.1
      · exact Stmt.neat_lines (level + 1) body printable.1.2.2 line inBody
      · exact Stmt.neat_armLines level rest printable.2 line inRest

theorem Stmt.neat_otherwiseLines (level : Nat) : (otherwise : Option (List Stmt)) →
    Stmt.otherwiseIsPrintable otherwise = true →
      ∀ line ∈ Stmt.otherwiseLines level otherwise, line.Neat
  | none, _ => List.forall_mem_nil _
  | some body, printable => by
      simp only [Stmt.otherwiseIsPrintable, Bool.and_eq_true] at printable
      intro line member
      rcases List.mem_cons.mp member with rfl | inBody
      · exact neat_otherwise level
      · exact Stmt.neat_lines (level + 1) body printable.2 line inBody

end

end IndentScript
