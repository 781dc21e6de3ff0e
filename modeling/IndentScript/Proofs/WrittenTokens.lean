import IndentScript.Proofs.LineLayout
import IndentScript.Proofs.OuterBlanks
import IndentScript.Proofs.Rendering

/-!
Tokens written as a source text of one line. A token is written as the text that it stands for, and
a space stands between two of them. The space ends every word and every number, and it keeps two
signs of equality apart, so that the line is cut up into the tokens it was written from.
-/

namespace IndentScript

namespace Token

/-- A token that stands for some text on a line: its payload is one that a token of its kind can
have. Layout has no text. -/
def isWritable (token : Token) : Bool :=
  match token.kind, token.payload with
  | .number, .number value =>
    0 ≤ value && (Nat.toDigits 10 value.toNat).length ≤ Number.digitLimit
  | .string, .text content => isQuotable content
  | .identifier, .text word => isIdentifier word
  | .keyword keyword, .text word => word = keyword.spelling
  | .symbol sign, .text text => text = sign.spelling
  | _, _ => false

/-- The source text of a token: texts are quoted and numbers are decimal. -/
def written (token : Token) : String :=
  match token.kind, token.payload with
  | .string, .text content => "\"" ++ content ++ "\""
  | _, .text content => content
  | _, .number value => toString value
  | _, .absent => ""

def writtenLine (tokens : List Token) : String :=
  " ".intercalate (tokens.map written)

/-- A token that can be written is that of a piece of a line. -/
theorem exists_piece {token : Token} (writable : token.isWritable = true) :
    ∃ piece : Piece, piece.wellFormed = true ∧ piece.token? token.line = some token ∧
      piece.text = token.written.toList := by
  obtain ⟨kind, payload, line⟩ := token
  cases payload with
  | absent => cases kind <;> cases writable
  | number value =>
      cases kind with
      | number =>
          simp only [isWritable, Bool.and_eq_true, decide_eq_true_eq] at writable
          obtain ⟨value, rfl⟩ := Int.eq_ofNat_of_zero_le writable.1
          refine ⟨.numeral value, decide_eq_true writable.2, rfl, ?_⟩
          change Nat.toDigits 10 value = (toString value).toList
          simp
      | _ => cases writable
  | text content =>
      cases kind with
      | string => exact ⟨.quoted content, writable, rfl, by simp [written, Piece.text]⟩
      | identifier => exact ⟨.name content, writable, rfl, rfl⟩
      | keyword keyword =>
          obtain rfl : content = keyword.spelling := of_decide_eq_true writable
          exact ⟨.word keyword, rfl, rfl, rfl⟩
      | symbol sign =>
          obtain rfl : content = sign.spelling := of_decide_eq_true writable
          exact ⟨.sign sign, rfl, rfl, rfl⟩
      | _ => cases writable

end Token

namespace Piece

/-- Pieces with spaces between them may stand on one line. -/
theorem tidy_intersperse {pieces : List Piece} (good : ∀ piece ∈ pieces, piece.wellFormed = true) :
    Tidy (pieces.intersperse space) := by
  induction pieces with
  | nil => exact tidy_nil
  | cons piece rest ih =>
      obtain ⟨first, others⟩ := List.forall_mem_cons.mp good
      cases rest with
      | nil => exact (tidy_singleton piece).mpr first
      | cons next rest => exact (tidy_cons_cons_separator rfl piece _).mpr ⟨first, ih others⟩

theorem textOf_intersperse (pieces : List Piece) :
    textOf (pieces.intersperse space) = [' '].intercalate (pieces.map text) := by
  induction pieces with
  | nil => rfl
  | cons piece rest ih =>
      cases rest with
      | nil => simp [textOf]
      | cons next rest =>
          rw [List.map_cons, List.map_cons, List.intercalate_cons_cons, ← List.map_cons, ← ih,
            List.append_assoc]
          rfl

theorem tokensOf_intersperse (line : Nat) (pieces : List Piece) :
    tokensOf line (pieces.intersperse space) = tokensOf line pieces := by
  induction pieces with
  | nil => rfl
  | cons piece rest ih =>
      cases rest with
      | nil => rfl
      | cons next rest =>
          -- The space has no token, so that it is gone once the list is taken apart.
          change tokensOf line ([piece] ++ (next :: rest).intersperse space) =
            tokensOf line ([piece] ++ next :: rest)
          unfold tokensOf at ih ⊢
          rw [List.filterMap_append, List.filterMap_append, ih]

theorem head?_intersperse {pieces : List Piece} (noSpace : space ∉ pieces) :
    (pieces.intersperse space).head? ≠ some space := by
  have first : (pieces.intersperse space).head? = pieces.head? := by
    rcases pieces with _ | ⟨piece, _ | ⟨next, rest⟩⟩
    all_goals rfl
  rw [first]
  exact fun isFirst => noSpace (List.mem_of_head? isFirst)

end Piece

theorem exists_pieces {tokens : List Token} {line : Nat}
    (valid : ∀ token ∈ tokens, token.isWritable = true ∧ token.line = line) :
    ∃ pieces : List Piece, (∀ piece ∈ pieces, piece.wellFormed = true ∧ piece ≠ .space) ∧
      Piece.tokensOf line pieces = tokens ∧ pieces.map Piece.text = tokens.map (·.written.toList) := by
  induction tokens with
  | nil => exact ⟨[], List.forall_mem_nil _, rfl, rfl⟩
  | cons token tokens ih =>
      obtain ⟨⟨writable, rfl⟩, others⟩ := List.forall_mem_cons.mp valid
      obtain ⟨pieces, good, same, texts⟩ := ih others
      obtain ⟨piece, wellFormed, present, text⟩ := token.exists_piece writable
      have visible : piece ≠ .space := by
        rintro rfl
        cases present
      refine ⟨piece :: pieces, List.forall_mem_cons.mpr ⟨⟨wellFormed, visible⟩, good⟩, ?_, ?_⟩
      · rw [Piece.tokensOf, List.filterMap_cons_some present]
        exact congrArg (token :: ·) same
      · rw [List.map_cons, List.map_cons, text, texts]

/-- A text of one line at the margin, with its tokens and nothing around them. -/
theorem tokenize_unbroken {text : String} {tokens : List Token}
    (unbroken : ∀ c ∈ text.toList, Text.isLineBreak c = false)
    (margin : Lexing.indentation text.toList = 0)
    (scanned : Lexing.scan 1 text.toList = (tokens, none)) :
    tokenize text = .ok (tokens ++ [Token.final 1]) := by
  rw [tokenize_eq_ok_iff]
  cases characters : text.toList with
  | nil =>
      rw [characters, Lexing.scan] at scanned
      cases scanned
      exact ⟨rfl, rfl⟩
  | cons c rest =>
      have row := Text.lines_unbroken (characters ▸ List.cons_ne_nil c rest) unbroken
      rw [← characters, row, Lexing.cut, margin, List.drop_zero, scanned]
      exact ⟨rfl, rfl⟩

/-- Writing tokens on a line and cutting the line up gives the tokens. -/
theorem tokenize_writtenLine {tokens : List Token}
    (valid : ∀ token ∈ tokens, token.isWritable = true ∧ token.line = 1) :
    tokenize (Token.writtenLine tokens) = .ok (tokens ++ [Token.final 1]) := by
  obtain ⟨pieces, good, sameTokens, sameTexts⟩ := exists_pieces valid
  have tidy := Piece.tidy_intersperse fun piece member => (good piece member).1
  have text : (Token.writtenLine tokens).toList = Piece.textOf (pieces.intersperse .space) := by
    rw [Token.writtenLine, String.toList_intercalate, List.map_map, Piece.textOf_intersperse,
      sameTexts]
    rfl
  have scanned := Piece.scan_textOf 1 _ tidy
  rw [Piece.tokensOf_intersperse, sameTokens] at scanned
  apply tokenize_unbroken
  · rw [text]
    exact Piece.textOf_not_isLineBreak tidy
  · rw [text]
    exact Lexing.indentation_eq_zero (Piece.textOf_head_not_isBlank tidy
      (Piece.head?_intersperse fun member => (good _ member).2 rfl))
  · rw [text]
    exact scanned

def touchingTokens : List Token :=
  [⟨.keyword .ifWord, .text "if", 1⟩, ⟨.identifier, .text "_a½", 1⟩, ⟨.number, .number 70, 1⟩,
    ⟨.symbol .assign, .text "=", 1⟩, ⟨.symbol .assign, .text "=", 1⟩,
    ⟨.symbol .equals, .text "==", 1⟩, ⟨.string, .text " x\t", 1⟩, ⟨.string, .text "", 1⟩]

theorem tokenize_writtenLine_touching :
    Token.writtenLine touchingTokens = "if _a½ 70 = = == \" x\t\" \"\"" ∧
      tokenize "if _a½ 70 = = == \" x\t\" \"\"" = .ok (touchingTokens ++ [Token.final 1]) := by
  have same : Token.writtenLine touchingTokens = "if _a½ 70 = = == \" x\t\" \"\"" := by
    decide +kernel
  have valid : touchingTokens.all fun token => token.isWritable && token.line = 1 := by
    decide +kernel
  simp only [List.all_eq_true, Bool.and_eq_true, decide_eq_true_eq] at valid
  exact ⟨same, same ▸ tokenize_writtenLine valid⟩

end IndentScript
