import IndentScript.Proofs.CharacterClasses

/-!
Rendering of lexemes, and cutting the rendered line up again.

A line is rendered piece by piece. A piece is a space or the source text of one token. Two pieces
may touch when one of them is a space, a bracket, a comma or a colon: none of these can be taken
for a part of its neighbour. A line of such pieces is cut up into exactly their tokens.
-/

namespace IndentScript

def isIdentifier (word : String) : Bool :=
  match word.toList with
  | [] => false
  | first :: rest =>
    Lexing.startsWord first && rest.all Lexing.continuesWord && (Keyword.ofSpelling? word).isNone

/-- A text that can stand between quotes on one line. -/
def isQuotable (content : String) : Bool :=
  content.toList.all fun c => c ≠ '"' && !Text.isLineBreak c

inductive Piece where
  | space
  | word (keyword : Keyword)
  | sign (symbol : Symbol)
  | name (identifier : String)
  | quoted (content : String)
  | numeral (value : Nat)
  deriving DecidableEq, Repr

namespace Piece

def text : Piece → List Char
  | space => [' ']
  | word keyword => keyword.spelling.toList
  | sign symbol => symbol.spelling.toList
  | name identifier => identifier.toList
  | quoted content => '"' :: content.toList ++ ['"']
  | numeral value => Nat.toDigits 10 value

def token? (line : Nat) : Piece → Option Token
  | space => none
  | word keyword => some ⟨.keyword keyword, .text keyword.spelling, line⟩
  | sign symbol => some ⟨.symbol symbol, .text symbol.spelling, line⟩
  | name identifier => some ⟨.identifier, .text identifier, line⟩
  | quoted content => some ⟨.string, .text content, line⟩
  | numeral value => some ⟨.number, .number value, line⟩

def wellFormed : Piece → Bool
  | name identifier => isIdentifier identifier
  | quoted content => isQuotable content
  | numeral value => (Nat.toDigits 10 value).length ≤ Number.digitLimit
  | _ => true

/-- A piece that any other piece may touch. -/
def separates : Piece → Bool
  | space => true
  | sign symbol =>
    symbol ∈ [Symbol.openParen, .closeParen, .openBrace, .closeBrace, .comma, .colon]
  | _ => false

/-- Of two pieces that touch, one separates. -/
def Spaced (pieces : List Piece) : Prop :=
  pieces.IsChain fun one other => one.separates = true ∨ other.separates = true

def Tidy (pieces : List Piece) : Prop :=
  (∀ piece ∈ pieces, piece.wellFormed = true) ∧ Spaced pieces

theorem tidy_nil : Tidy [] :=
  ⟨List.forall_mem_nil _, List.isChain_nil⟩

@[simp]
theorem tidy_singleton (piece : Piece) : Tidy [piece] ↔ piece.wellFormed = true := by
  constructor
  · intro tidy
    exact tidy.1 piece List.mem_cons_self
  · intro good
    refine ⟨fun other member => ?_, List.isChain_singleton piece⟩
    rw [List.mem_singleton.mp member]
    exact good

private theorem wellFormed_of_separates {piece : Piece} (separating : piece.separates = true) :
    piece.wellFormed = true := by
  cases piece with
  | space => rfl
  | sign => rfl
  | word => rfl
  | name => cases separating
  | quoted => cases separating
  | numeral => cases separating

/-- A separating piece joins any two tidy rows. -/
theorem tidy_append_separator {separator : Piece} (separating : separator.separates = true)
    (front back : List Piece) :
    Tidy (front ++ separator :: back) ↔ Tidy front ∧ Tidy back := by
  have good := wellFormed_of_separates separating
  constructor
  · rintro ⟨allGood, spaced⟩
    obtain ⟨frontSpaced, backSpaced, _⟩ := List.isChain_append.mp spaced
    exact ⟨⟨fun piece member => allGood piece (List.mem_append_left _ member), frontSpaced⟩,
      ⟨fun piece member => allGood piece (List.mem_append_right _ (List.mem_cons_of_mem _ member)),
        backSpaced.tail⟩⟩
  · rintro ⟨⟨frontGood, frontSpaced⟩, ⟨backGood, backSpaced⟩⟩
    refine ⟨?_, List.isChain_append.mpr ⟨frontSpaced, List.isChain_cons.mpr ⟨?_, backSpaced⟩, ?_⟩⟩
    · intro piece member
      rcases List.mem_append.mp member with inFront | inBack
      · exact frontGood piece inFront
      · rcases List.mem_cons.mp inBack with rfl | inBack
        · exact good
        · exact backGood piece inBack
    · intro next _
      exact .inl separating
    · intro last _ next isNext
      cases isNext
      exact .inr separating

theorem tidy_cons_separator {separator : Piece} (separating : separator.separates = true)
    (back : List Piece) : Tidy (separator :: back) ↔ Tidy back := by
  have joined := tidy_append_separator separating [] back
  simp only [List.nil_append, tidy_nil, true_and] at joined
  exact joined

theorem tidy_cons_cons_separator {separator : Piece} (separating : separator.separates = true)
    (piece : Piece) (back : List Piece) :
    Tidy (piece :: separator :: back) ↔ piece.wellFormed = true ∧ Tidy back := by
  have joined := tidy_append_separator separating [piece] back
  rw [tidy_singleton] at joined
  exact joined

/-! ### The end of a piece -/

/-- Characters before which every lexeme ends. -/
def Boundary (rest : List Char) : Prop :=
  ∀ c ∈ rest.head?, Lexing.continuesWord c = false ∧ c ≠ '='

private theorem boundary_nil : Boundary [] := by
  intro c member
  cases member

private theorem text_of_separates {piece : Piece} (separating : piece.separates = true) :
    ∃ c, piece.text = [c] ∧ Lexing.continuesWord c = false ∧ c ≠ '=' := by
  cases piece with
  | space => exact ⟨' ', rfl, by decide⟩
  | sign symbol =>
      simp only [separates, List.mem_cons, List.not_mem_nil, or_false, decide_eq_true_eq]
        at separating
      rcases separating with rfl | rfl | rfl | rfl | rfl | rfl
      all_goals exact ⟨_, rfl, by decide⟩
  | word => cases separating
  | name => cases separating
  | quoted => cases separating
  | numeral => cases separating

private theorem boundary_of_separates {piece : Piece} (separating : piece.separates = true)
    (rest : List Char) : Boundary (piece.text ++ rest) := by
  obtain ⟨c, sameText, ends⟩ := text_of_separates separating
  intro head member
  rw [sameText] at member
  cases member
  exact ends

private theorem Boundary.not_isDigit {rest : List Char} (ends : Boundary rest) :
    ∀ c ∈ rest.head?, Text.isDigit c = false := by
  intro c member
  have notWord := (ends c member).1
  rw [Lexing.continuesWord, Text.isLetterOrNumeric] at notWord
  simp only [Bool.or_eq_false_iff] at notWord
  exact notWord.1.1.2

/-- A run of characters of a class ends where the next one is outside the class. -/
theorem run_stops {p : Char → Bool} {run rest : List Char}
    (all : ∀ c ∈ run, p c = true) (stop : ∀ c ∈ rest.head?, p c = false) :
    (run ++ rest).takeWhile p = run ∧ (run ++ rest).dropWhile p = rest := by
  rw [List.takeWhile_append_of_pos all, List.dropWhile_append_of_pos all]
  cases rest with
  | nil => exact ⟨List.append_nil run, rfl⟩
  | cons c rest =>
      have outside := stop c rfl
      constructor
      · rw [List.takeWhile_cons_of_neg (by simp [outside]), List.append_nil]
      · rw [List.dropWhile_cons_of_neg (by simp [outside])]

/-! ### Numerals -/

private theorem leadingDigits_of_ascii (run : List Char) (digits : ∀ c ∈ run, c.isDigit = true) :
    Number.leadingDigits run = some (run.map fun c => c.toNat - '0'.toNat, []) := by
  induction run with
  | nil => rfl
  | cons c rest ih =>
      have digit := digits c List.mem_cons_self
      have noUnderscore : c ≠ '_' := by
        rintro rfl
        revert digit
        decide
      have others := ih fun d member => digits d (List.mem_cons_of_mem c member)
      rw [Number.leadingDigits]
      · rw [if_neg noUnderscore, Text.decimalValue?_of_ascii digit]
        simp only [others, Option.map_some, List.map_cons]
      · intro d tail same _
        exact noUnderscore same

private theorem readDigits_toDigits (value : Nat) (text : String)
    (short : (Nat.toDigits 10 value).length ≤ Number.digitLimit) :
    Number.readDigits text (Nat.toDigits 10 value) = .ok value := by
  have digits : ∀ c ∈ Nat.toDigits 10 value, c.isDigit = true := fun c member =>
    Nat.isDigit_of_mem_toDigits (by decide) (by decide) member
  have noUnderscore : (Nat.toDigits 10 value).head? ≠ some '_' := by
    intro same
    have digit := digits '_' (List.mem_of_head? same)
    revert digit
    decide
  have notEmpty : (Nat.toDigits 10 value) ≠ [] := Nat.toDigits_ne_nil
  have meaning : Number.ofDigits ((Nat.toDigits 10 value).map fun c => c.toNat - '0'.toNat) =
      value := by
    rw [Number.ofDigits, List.foldl_map]
    exact Nat.ofDigitChars_ten_toDigits
  rw [Number.readDigits, if_neg noUnderscore, leadingDigits_of_ascii _ digits]
  simp only [List.length_map, Nat.not_lt.mpr short, if_false, List.isEmpty_map, List.isEmpty_nil,
    Bool.not_true, Bool.or_false, List.isEmpty_eq_false_iff.mpr notEmpty, Bool.false_eq_true,
    meaning]

/-! ### One piece -/

theorem lexeme_of_word (line : Nat) {first : Char} {others rest : List Char}
    (starts : Lexing.startsWord first = true)
    (continues : ∀ c ∈ others, Lexing.continuesWord c = true)
    (stop : ∀ c ∈ rest.head?, Lexing.continuesWord c = false) :
    Lexing.lexeme line first (others ++ rest) =
      .ok ⟨Lexing.wordKind (String.ofList (first :: others)),
        .text (String.ofList (first :: others)), rest⟩ := by
  have notQuote : first ≠ '"' := by
    rintro rfl
    revert starts
    decide
  have notDigit := Lexing.isDigit_eq_false_of_startsWord starts
  obtain ⟨taken, left⟩ := run_stops continues stop
  rw [Lexing.lexeme, if_neg notQuote, notDigit, if_neg Bool.false_ne_true, if_pos starts, taken,
    left]

theorem lexeme_of_quoted (line : Nat) {content rest : List Char}
    (plain : ∀ c ∈ content, c ≠ '"') :
    Lexing.lexeme line '"' (content ++ '"' :: rest) =
      .ok ⟨.string, .text (String.ofList content), rest⟩ := by
  obtain ⟨taken, left⟩ := @run_stops (fun c => decide (c ≠ '"')) content ('"' :: rest)
    (fun c member => decide_eq_true (plain c member)) (fun c member => by cases member; decide)
  rw [Lexing.lexeme, if_pos rfl, taken, left]

private theorem lexeme_of_numeral (line value : Nat) {first : Char} {others rest : List Char}
    (digits : Nat.toDigits 10 value = first :: others)
    (short : (Nat.toDigits 10 value).length ≤ Number.digitLimit)
    (stop : ∀ c ∈ rest.head?, Text.isDigit c = false) :
    Lexing.lexeme line first (others ++ rest) = .ok ⟨.number, .number value, rest⟩ := by
  have ascii : ∀ c ∈ first :: others, c.isDigit = true := fun c member =>
    Nat.isDigit_of_mem_toDigits (by decide) (by decide) (digits ▸ member)
  have notQuote : first ≠ '"' := by
    rintro rfl
    have digit := ascii '"' List.mem_cons_self
    revert digit
    decide
  obtain ⟨taken, left⟩ := run_stops
    (fun c member => Text.isDigit_of_ascii (ascii c (List.mem_cons_of_mem first member))) stop
  have read := readDigits_toDigits value (String.ofList (first :: others)) short
  rw [digits] at read
  rw [Lexing.lexeme, if_neg notQuote,
    if_pos (Text.isDigit_of_ascii (ascii first List.mem_cons_self)), taken, left]
  simp only [read]

/-- A character that the lexer takes for a sign whatever comes after it. -/
def StandsAlone (c : Char) (symbol : Symbol) : Prop :=
  c ≠ '"' ∧ Text.isDigit c = false ∧ Lexing.startsWord c = false ∧ c ≠ '=' ∧
    Symbol.ofCharacter? c = some symbol

theorem lexeme_of_standsAlone (line : Nat) {c : Char} {symbol : Symbol}
    (alone : StandsAlone c symbol) (rest : List Char) :
    Lexing.lexeme line c rest = .ok ⟨.symbol symbol, .text symbol.spelling, rest⟩ := by
  obtain ⟨notQuote, notDigit, notWord, notEqual, sign⟩ := alone
  rw [Lexing.lexeme, if_neg notQuote, notDigit, if_neg Bool.false_ne_true, notWord,
    if_neg Bool.false_ne_true, if_neg fun both => notEqual both.1, sign]

theorem lexeme_of_assign (line : Nat) {rest : List Char} (ends : rest.head? ≠ some '=') :
    Lexing.lexeme line '=' rest =
      .ok ⟨.symbol .assign, .text Symbol.assign.spelling, rest⟩ := by
  rw [Lexing.lexeme, if_neg (by decide), if_neg (by decide), if_neg (by decide),
    if_neg fun both => ends both.2]
  rfl

theorem lexeme_of_equals (line : Nat) (rest : List Char) :
    Lexing.lexeme line '=' ('=' :: rest) =
      .ok ⟨.symbol .equals, .text Symbol.equals.spelling, rest⟩ := by
  rw [Lexing.lexeme, if_neg (by decide), if_neg (by decide), if_neg (by decide),
    if_pos ⟨rfl, rfl⟩]
  rfl

/-- The characters of a sign: one that stands alone, or one or two signs of equality. -/
theorem spelling_cases (symbol : Symbol) :
    symbol = .assign ∨ symbol = .equals ∨
      ∃ c, symbol.spelling.toList = [c] ∧ Text.isBlank c = false ∧ StandsAlone c symbol := by
  cases symbol with
  | assign => exact .inl rfl
  | equals => exact .inr (.inl rfl)
  | _ => exact .inr (.inr ⟨_, rfl, by decide, by unfold StandsAlone; decide⟩)

private def Found (line : Nat) (piece : Piece) (token : Token) (rest : List Char) : Prop :=
  ∃ first others, piece.text = first :: others ∧ Text.isBlank first = false ∧
    Lexing.lexeme line first (others ++ rest) = .ok ⟨token.kind, token.payload, rest⟩ ∧
    token.line = line

private theorem found_sign (line : Nat) (symbol : Symbol) {rest : List Char}
    (ends : (sign symbol).separates = true ∨ Boundary rest) :
    Found line (sign symbol) ⟨.symbol symbol, .text symbol.spelling, line⟩ rest := by
  rcases spelling_cases symbol with rfl | rfl | ⟨c, sameText, visible, alone⟩
  · have stop : rest.head? ≠ some '=' := by
      intro same
      rcases ends with separating | boundary
      · cases separating
      · exact (boundary '=' same).2 rfl
    exact ⟨'=', [], rfl, by decide, lexeme_of_assign line stop, rfl⟩
  · exact ⟨'=', ['='], rfl, by decide, lexeme_of_equals line rest, rfl⟩
  · exact ⟨c, [], sameText, visible, lexeme_of_standsAlone line alone rest, rfl⟩

private def WordShaped (characters : List Char) : Prop :=
  ∃ first others, characters = first :: others ∧ Lexing.startsWord first = true ∧
    ∀ c ∈ others, Lexing.continuesWord c = true

private theorem wordShaped_spelling (keyword : Keyword) : WordShaped keyword.spelling.toList := by
  cases keyword
  all_goals exact ⟨_, _, rfl, by decide, List.all_eq_true.mp (by decide)⟩

private theorem wordShaped_of_isIdentifier {word : String} (identifier : isIdentifier word = true) :
    WordShaped word.toList := by
  unfold isIdentifier at identifier
  split at identifier
  · cases identifier
  · rename_i first others characters
    simp only [Bool.and_eq_true, List.all_eq_true] at identifier
    exact ⟨first, others, characters, identifier.1.1, identifier.1.2⟩

private theorem WordShaped.continuesWord {characters : List Char} (shaped : WordShaped characters) :
    ∀ c ∈ characters, Lexing.continuesWord c = true := by
  obtain ⟨first, others, rfl, starts, continues⟩ := shaped
  intro c member
  rcases List.mem_cons.mp member with rfl | inOthers
  · exact Lexing.continuesWord_of_startsWord starts
  · exact continues c inOthers

private theorem found_word (line : Nat) {piece : Piece} {word : String} {rest : List Char}
    (sameText : piece.text = word.toList) (shaped : WordShaped word.toList) (ends : Boundary rest) :
    Found line piece ⟨Lexing.wordKind word, .text word, line⟩ rest := by
  obtain ⟨first, others, characters, starts, continues⟩ := shaped
  have visible := Lexing.isBlank_eq_false_of_continuesWord
    (Lexing.continuesWord_of_startsWord starts)
  have found := lexeme_of_word line starts continues fun c member => (ends c member).1
  rw [← characters, String.ofList_toList] at found
  exact ⟨first, others, sameText.trans characters, visible, found, rfl⟩

theorem wordKind_spelling (keyword : Keyword) :
    Lexing.wordKind keyword.spelling = .keyword keyword := by
  cases keyword <;> rfl

theorem wordKind_of_isIdentifier {word : String} (identifier : isIdentifier word = true) :
    Lexing.wordKind word = .identifier := by
  unfold isIdentifier at identifier
  split at identifier
  · cases identifier
  · have noKeyword := (Bool.and_eq_true_iff.mp identifier).2
    rw [Lexing.wordKind, Option.isNone_iff_eq_none.mp noKeyword]

private theorem found_of_token {line : Nat} {piece : Piece} {token : Token} {rest : List Char}
    (good : piece.wellFormed = true) (present : piece.token? line = some token)
    (ends : piece.separates = true ∨ Boundary rest) : Found line piece token rest := by
  cases piece with
  | space => cases present
  | sign symbol =>
      cases present
      exact found_sign line symbol ends
  | word keyword =>
      have found := @found_word line (word keyword) keyword.spelling rest rfl
        (wordShaped_spelling keyword) (ends.resolve_left Bool.false_ne_true)
      rw [wordKind_spelling] at found
      cases present
      exact found
  | name identifier =>
      have found := @found_word line (name identifier) identifier rest rfl
        (wordShaped_of_isIdentifier good) (ends.resolve_left Bool.false_ne_true)
      rw [wordKind_of_isIdentifier good] at found
      cases present
      exact found
  | quoted content =>
      cases present
      have plain : ∀ c ∈ content.toList, c ≠ '"' := by
        intro c member
        have quotable := List.all_eq_true.mp good c member
        exact of_decide_eq_true (Bool.and_eq_true_iff.mp quotable).1
      have found := @lexeme_of_quoted line content.toList rest plain
      rw [String.ofList_toList] at found
      refine ⟨'"', content.toList ++ ['"'], rfl, by decide, ?_, rfl⟩
      rw [List.append_assoc]
      exact found
  | numeral value =>
      cases present
      have boundary := ends.resolve_left Bool.false_ne_true
      cases digits : Nat.toDigits 10 value with
      | nil => exact absurd digits Nat.toDigits_ne_nil
      | cons first others =>
          have digit := Nat.isDigit_of_mem_toDigits (by decide) (by decide)
            (digits ▸ List.mem_cons_self : first ∈ Nat.toDigits 10 value)
          exact ⟨first, others, digits,
            Text.isBlank_eq_false_of_isDigit (Text.isDigit_of_ascii digit),
            lexeme_of_numeral line value digits (of_decide_eq_true good) boundary.not_isDigit, rfl⟩

/-! ### Whole lines -/

def textOf (pieces : List Piece) : List Char :=
  pieces.flatMap text

def tokensOf (line : Nat) (pieces : List Piece) : List Token :=
  pieces.filterMap (token? line)

private theorem scan_found {line : Nat} {piece : Piece} {token : Token} {rest : List Char}
    (found : Found line piece token rest) :
    Lexing.scan line (piece.text ++ rest) =
      (token :: (Lexing.scan line rest).1, (Lexing.scan line rest).2) := by
  obtain ⟨first, others, sameText, visible, lexeme, sameLine⟩ := found
  rw [sameText, List.cons_append, Lexing.scan, visible, if_neg Bool.false_ne_true]
  split
  · rename_i fault failed
    rw [lexeme] at failed
    cases failed
  · rename_i result succeeded
    rw [lexeme] at succeeded
    cases succeeded
    rw [← sameLine]

private theorem boundary_of_spaced {piece : Piece} {pieces : List Piece}
    (spaced : Spaced (piece :: pieces)) :
    piece.separates = true ∨ Boundary (textOf pieces) := by
  cases pieces with
  | nil => exact .inr boundary_nil
  | cons next rest =>
      rcases (List.isChain_cons_cons.mp spaced).1 with here | there
      · exact .inl here
      · exact .inr (boundary_of_separates there (textOf rest))

/-- Tidy pieces are cut up into their tokens. -/
theorem scan_textOf (line : Nat) (pieces : List Piece) (tidy : Tidy pieces) :
    Lexing.scan line (textOf pieces) = (tokensOf line pieces, none) := by
  induction pieces with
  | nil =>
      rw [textOf, List.flatMap_nil, Lexing.scan]
      rfl
  | cons piece pieces ih =>
      obtain ⟨good, spaced⟩ := tidy
      have others := ih
        ⟨fun next member => good next (List.mem_cons_of_mem piece member), spaced.tail⟩
      have front : textOf (piece :: pieces) = piece.text ++ textOf pieces := List.flatMap_cons
      rw [front]
      cases present : piece.token? line with
      | none =>
          obtain rfl : piece = space := by
            cases piece with
            | space => rfl
            | _ => cases present
          change Lexing.scan line (' ' :: textOf pieces) = _
          rw [Lexing.scan, if_pos (by decide)]
          exact others
      | some token =>
          have found := found_of_token (good piece List.mem_cons_self) present
            (boundary_of_spaced spaced)
          have tokens : tokensOf line (piece :: pieces) = token :: tokensOf line pieces :=
            List.filterMap_cons_some present
          rw [scan_found found, others, tokens]

/-! ### Where a line starts and ends -/

private theorem not_isLineBreak_of_continuesWord {c : Char}
    (continues : Lexing.continuesWord c = true) : Text.isLineBreak c = false := by
  rw [← Bool.not_eq_true]
  intro breaks
  have blank := Text.isBlank_of_isLineBreak breaks
  rw [Lexing.isBlank_eq_false_of_continuesWord continues] at blank
  cases blank

private theorem continuesWord_of_ascii {c : Char} (digit : c.isDigit = true) :
    Lexing.continuesWord c = true := by
  rw [Lexing.continuesWord, Text.isLetterOrNumeric, Text.isDigit_of_ascii digit, Bool.or_true,
    Bool.true_or, Bool.true_or]

private theorem text_not_isLineBreak {piece : Piece} (good : piece.wellFormed = true) :
    ∀ c ∈ piece.text, Text.isLineBreak c = false := by
  cases piece with
  | space => exact List.forall_mem_singleton.mpr (by decide)
  | sign symbol =>
      have unbroken : (symbol.spelling.toList.all fun c => !Text.isLineBreak c) = true := by
        cases symbol <;> decide
      intro c member
      simpa using List.all_eq_true.mp unbroken c member
  | word keyword =>
      intro c member
      exact not_isLineBreak_of_continuesWord ((wordShaped_spelling keyword).continuesWord c member)
  | name identifier =>
      intro c member
      exact not_isLineBreak_of_continuesWord
        ((wordShaped_of_isIdentifier good).continuesWord c member)
  | quoted content =>
      have inside : ∀ c ∈ content.toList, Text.isLineBreak c = false := by
        intro c member
        have quotable := List.all_eq_true.mp good c member
        simpa using (Bool.and_eq_true_iff.mp quotable).2
      intro c member
      simp only [text, List.cons_append, List.mem_cons, List.mem_append, List.not_mem_nil,
        or_false] at member
      rcases member with rfl | inContent | rfl
      · decide
      · exact inside c inContent
      · decide
  | numeral value =>
      intro c member
      exact not_isLineBreak_of_continuesWord
        (continuesWord_of_ascii (Nat.isDigit_of_mem_toDigits (by decide) (by decide) member))

/-- A tidy row holds no line break. -/
theorem textOf_not_isLineBreak {pieces : List Piece} (tidy : Tidy pieces) :
    ∀ c ∈ textOf pieces, Text.isLineBreak c = false := by
  intro c member
  obtain ⟨piece, inPieces, inText⟩ := List.mem_flatMap.mp member
  exact text_not_isLineBreak (tidy.1 piece inPieces) c inText

/-- A tidy row that does not start with a space starts with a visible character. -/
theorem textOf_head_not_isBlank {pieces : List Piece} (tidy : Tidy pieces)
    (start : pieces.head? ≠ some space) : ∀ c ∈ (textOf pieces).head?, Text.isBlank c = false := by
  cases pieces with
  | nil =>
      intro c member
      cases member
  | cons piece rest =>
      have isToken : piece.token? 0 ≠ none := by
        intro absent
        apply start
        cases piece with
        | space => rfl
        | _ => cases absent
      obtain ⟨token, present⟩ := Option.ne_none_iff_exists'.mp isToken
      obtain ⟨first, others, sameText, visible, _⟩ := found_of_token
        (tidy.1 piece List.mem_cons_self) present (boundary_of_spaced tidy.2)
      intro c member
      rw [textOf, List.flatMap_cons, sameText] at member
      cases member
      exact visible

end Piece

end IndentScript
