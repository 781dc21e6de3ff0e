import IndentScript.Proofs.Indentation
import IndentScript.Proofs.SourceTokens

/-!
The characters that tokens stand for. Every line of a source text that can be cut up is made of the
texts of its tokens, in their order, with nothing but blanks around them: no character of a line is
lost or used twice. A word and a run of digits take in all the characters that can belong to them.
-/

namespace IndentScript

/-! ### The text of a token -/

structure WordRun (text after : List Char) : Prop where
  starts : ∃ first ∈ text.head?, Lexing.startsWord first = true
  continues : ∀ c ∈ text, Lexing.continuesWord c = true
  stops : ∀ c ∈ after.head?, Lexing.continuesWord c = false

/-- The characters are all the digits that stand in a row between the given ones. -/
structure DigitRun (before text after : List Char) : Prop where
  nonempty : text ≠ []
  digits : ∀ c ∈ text, Text.isDigit c = true
  starts : ∀ c ∈ before.getLast?, Text.isDigit c = false
  stops : ∀ c ∈ after.head?, Text.isDigit c = false

/-- The token stands for the characters `text` of a line, which has `before` in front of them and
`after` behind them. Tokens of the layout stand for no characters. -/
def Token.StandsFor (token : Token) (before text after : List Char) : Prop :=
  match token.kind with
  | .string => ∃ content, token.payload = .text content ∧
      text = '"' :: (content.toList ++ ['"']) ∧ '"' ∉ content.toList
  | .number => ∃ value, token.payload = .number value ∧ DigitRun before text after ∧
      Number.readInteger (String.ofList text) = .ok value
  | .identifier => token.payload = .text (String.ofList text) ∧ WordRun text after ∧
      ∀ keyword : Keyword, keyword.spelling ≠ String.ofList text
  | .keyword keyword => token.payload = .text (String.ofList text) ∧ WordRun text after ∧
      keyword.spelling = String.ofList text
  | .symbol sign => token.payload = .text (String.ofList text) ∧
      sign.spelling = String.ofList text ∧ (sign = .assign → after.head? ≠ some '=')
  | .indent | .dedent | .endOfSource | .other _ => False

/-- The tokens stand for characters of the row, one behind the other, and all other characters of
the row are blank. The line has `before` in front of the row. -/
inductive Spelled : List Char → List Char → List Token → Prop where
  | blank {before row : List Char} (blank : ∀ c ∈ row, Text.isBlank c = true) :
      Spelled before row []
  | token {before gap text after : List Char} {token : Token} {tokens : List Token}
      (blank : ∀ c ∈ gap, Text.isBlank c = true)
      (stands : token.StandsFor (before ++ gap) text after)
      (others : Spelled (before ++ (gap ++ text)) after tokens) :
      Spelled before (gap ++ (text ++ after)) (token :: tokens)

/-- Blanks in front of a row belong to no token. -/
theorem Spelled.behind_blank {before row : List Char} {c : Char} {tokens : List Token}
    (blank : Text.isBlank c = true) (spelled : Spelled (before ++ [c]) row tokens) :
    Spelled before (c :: row) tokens := by
  cases spelled with
  | blank rowBlank => exact .blank (List.forall_mem_cons.mpr ⟨blank, rowBlank⟩)
  | @token _ gap text after _ tokens gapBlank stands others =>
      rw [List.append_assoc, List.singleton_append] at stands others
      exact @Spelled.token before (c :: gap) text after _ tokens
        (List.forall_mem_cons.mpr ⟨blank, gapBlank⟩) stands others

/-- A token stands for the first characters of a row. -/
theorem Spelled.first {before text after : List Char} {token : Token} {tokens : List Token}
    (stands : token.StandsFor before text after) (others : Spelled (before ++ text) after tokens) :
    Spelled before (text ++ after) (token :: tokens) := by
  have noGap : token.StandsFor (before ++ []) text after := by rwa [List.append_nil]
  exact @Spelled.token before [] text after token tokens (List.forall_mem_nil _) noGap others

namespace Lexing

/-! ### Lexemes -/

/-- No run of digits goes from the one side to the other. -/
def NoRunAcross (before after : List Char) : Prop :=
  ∀ c ∈ after.head?, Text.isDigit c = true → ∀ d ∈ before.getLast?, Text.isDigit d = false

def Takes (before row : List Char) (token : Token) (rest : List Char) : Prop :=
  ∃ text, text ≠ [] ∧ row = text ++ rest ∧ token.StandsFor before text rest ∧ NoRunAcross text rest

theorem continuesWord_of_isDigit {c : Char} (digit : Text.isDigit c = true) :
    continuesWord c = true := by
  simp only [continuesWord, Text.isLetterOrNumeric, digit, Bool.or_true, Bool.true_or]

theorem takes_string (before : List Char) (line : Nat) {rest after : List Char} {quote : Char}
    (closed : rest.dropWhile (· ≠ '"') = quote :: after) :
    Takes before ('"' :: rest)
      ⟨.string, .text (String.ofList (rest.takeWhile (· ≠ '"'))), line⟩ after := by
  have isQuote : quote = '"' := by
    have stopped := @head?_dropWhile (fun c => decide (c ≠ '"')) rest quote (by rw [closed]; rfl)
    simpa using stopped
  have whole := List.takeWhile_append_dropWhile (p := (· ≠ '"')) (l := rest)
  rw [closed, isQuote] at whole
  refine ⟨'"' :: (rest.takeWhile (· ≠ '"') ++ ['"']), List.cons_ne_nil _ _, ?_,
    ⟨_, rfl, ?_, ?_⟩, ?_⟩
  · rw [List.cons_append, List.append_assoc, List.singleton_append, whole]
  · rw [String.toList_ofList]
  · rw [String.toList_ofList]
    intro member
    simpa using List.mem_takeWhile_imp member
  · intro c _ _ d last
    rw [← List.cons_append, List.getLast?_concat] at last
    cases last
    decide

theorem readInteger_of_isDigit {c : Char} (digit : Text.isDigit c = true) (text : String)
    {others : List Char} (characters : text.toList = c :: others) :
    Number.readInteger text = (Number.readDigits text (c :: others)).map Int.ofNat := by
  unfold Number.readInteger
  rw [characters]
  have notMinus : c ≠ '-' := by
    rintro rfl
    revert digit
    decide
  have notPlus : c ≠ '+' := by
    rintro rfl
    revert digit
    decide
  split
  · rename_i same
    exact absurd (List.cons.inj same).1 notMinus
  · rename_i same
    exact absurd (List.cons.inj same).1 notPlus
  · rfl

theorem takes_number {before : List Char} (line : Nat) {c : Char} {rest : List Char} {value : Nat}
    (apart : NoRunAcross before (c :: rest)) (digit : Text.isDigit c = true)
    (read : Number.readDigits (String.ofList (c :: rest.takeWhile Text.isDigit))
      (c :: rest.takeWhile Text.isDigit) = .ok value) :
    Takes before (c :: rest) ⟨.number, .number value, line⟩ (rest.dropWhile Text.isDigit) := by
  have whole := readInteger_of_isDigit digit (String.ofList (c :: rest.takeWhile Text.isDigit))
    String.toList_ofList
  rw [read] at whole
  refine ⟨c :: rest.takeWhile Text.isDigit, List.cons_ne_nil _ _, ?_,
    ⟨value, rfl, ⟨List.cons_ne_nil _ _, ?_, ?_, ?_⟩, whole⟩, ?_⟩
  · rw [List.cons_append, List.takeWhile_append_dropWhile]
  · exact List.forall_mem_cons.mpr ⟨digit, fun d member => List.mem_takeWhile_imp member⟩
  · exact apart c rfl digit
  · exact head?_dropWhile
  · intro d first isDigit
    rw [head?_dropWhile d first] at isDigit
    cases isDigit

theorem takes_word (before : List Char) (line : Nat) {c : Char} (rest : List Char)
    (starts : startsWord c = true) :
    Takes before (c :: rest)
      ⟨wordKind (String.ofList (c :: rest.takeWhile continuesWord)),
        .text (String.ofList (c :: rest.takeWhile continuesWord)), line⟩
      (rest.dropWhile continuesWord) := by
  have word : WordRun (c :: rest.takeWhile continuesWord) (rest.dropWhile continuesWord) :=
    ⟨⟨c, rfl, starts⟩, List.forall_mem_cons.mpr ⟨continuesWord_of_startsWord starts,
      fun d member => List.mem_takeWhile_imp member⟩, head?_dropWhile⟩
  refine ⟨c :: rest.takeWhile continuesWord, List.cons_ne_nil _ _, ?_, ?_, ?_⟩
  · rw [List.cons_append, List.takeWhile_append_dropWhile]
  · rcases wordKind_cases (String.ofList (c :: rest.takeWhile continuesWord)) with
      ⟨keyword, known, same⟩ | ⟨unknown, same⟩
    · rw [same]
      exact ⟨rfl, word, Keyword.spelling_of_ofSpelling? known⟩
    · rw [same]
      refine ⟨rfl, word, fun keyword spelled => ?_⟩
      rw [← spelled, Keyword.ofSpelling?_spelling] at unknown
      cases unknown
  · intro d first digit
    have stopped := word.stops d first
    rw [continuesWord_of_isDigit digit] at stopped
    cases stopped

theorem spelling_of_ofCharacter? {c : Char} {sign : Symbol}
    (known : Symbol.ofCharacter? c = some sign) :
    sign.spelling = String.ofList [c] ∧ Text.isDigit c = false ∧ (sign = .assign → c = '=') := by
  unfold Symbol.ofCharacter? at known
  split at known
  all_goals cases known
  all_goals exact ⟨rfl, by decide, by decide⟩

theorem takes_sign (before : List Char) (line : Nat) {c : Char} {sign : Symbol} {rest : List Char}
    (known : Symbol.ofCharacter? c = some sign) (single : ¬(c = '=' ∧ rest.head? = some '=')) :
    Takes before (c :: rest) ⟨.symbol sign, .text sign.spelling, line⟩ rest := by
  obtain ⟨spelling, noDigit, isAssign⟩ := spelling_of_ofCharacter? known
  refine ⟨[c], List.cons_ne_nil _ _, rfl, ⟨congrArg Payload.text spelling, spelling, ?_⟩, ?_⟩
  · intro assigns doubled
    exact single ⟨isAssign assigns, doubled⟩
  · intro _ _ _ d last
    cases last
    exact noDigit

theorem takes_equals (before : List Char) (line : Nat) {rest : List Char}
    (doubled : rest.head? = some '=') :
    Takes before ('=' :: rest) ⟨.symbol .equals, .text Symbol.equals.spelling, line⟩
      (rest.drop 1) := by
  obtain ⟨others, rfl⟩ := List.head?_eq_some_iff.mp doubled
  refine ⟨['=', '='], List.cons_ne_nil _ _, rfl, ⟨rfl, rfl, Symbol.noConfusion⟩, ?_⟩
  intro _ _ _ d last
  cases last
  decide

/-- Every lexeme is what its token stands for. -/
theorem takes_of_lexeme {before : List Char} {line : Nat} {c : Char} {rest : List Char}
    {found : Lexeme} (apart : NoRunAcross before (c :: rest))
    (success : lexeme line c rest = .ok found) :
    Takes before (c :: rest) ⟨found.kind, found.payload, line⟩ found.rest := by
  unfold lexeme at success
  by_cases quote : c = '"'
  · rw [if_pos quote] at success
    cases closed : rest.dropWhile (· ≠ '"') with
    | nil =>
        rw [closed] at success
        cases success
    | cons quoteEnd after =>
        rw [closed] at success
        cases success
        rw [quote]
        exact takes_string before line closed
  rw [if_neg quote] at success
  by_cases digit : Text.isDigit c = true
  · rw [if_pos digit] at success
    dsimp only at success
    cases read : Number.readDigits (String.ofList (c :: rest.takeWhile Text.isDigit))
        (c :: rest.takeWhile Text.isDigit) with
    | error fault =>
        rw [read] at success
        cases success
    | ok value =>
        rw [read] at success
        cases success
        exact takes_number line apart digit read
  rw [if_neg digit] at success
  by_cases starts : startsWord c = true
  · rw [if_pos starts] at success
    cases success
    exact takes_word before line rest starts
  rw [if_neg starts] at success
  by_cases doubled : c = '=' ∧ rest.head? = some '='
  · rw [if_pos doubled] at success
    cases success
    rw [doubled.1]
    exact takes_equals before line doubled.2
  rw [if_neg doubled] at success
  cases known : Symbol.ofCharacter? c with
  | none =>
      rw [known] at success
      cases success
  | some sign =>
      rw [known] at success
      cases success
      exact takes_sign before line known doubled

/-! ### Lines -/

theorem NoRunAcross.append {before text after : List Char} (apart : NoRunAcross text after)
    (nonempty : text ≠ []) : NoRunAcross (before ++ text) after := by
  intro c first digit d last
  rw [List.getLast?_append_of_ne_nil before nonempty] at last
  exact apart c first digit d last

/-- Whatever was in front, no run of digits goes on behind a blank. -/
theorem noRunAcross_blank {before : List Char} {c : Char} (blank : Text.isBlank c = true)
    (after : List Char) : NoRunAcross (before ++ [c]) after := by
  intro _ _ _ d last
  rw [List.getLast?_concat] at last
  cases last
  rw [← Bool.not_eq_true]
  intro digit
  rw [Text.isBlank_eq_false_of_isDigit digit] at blank
  cases blank

/-- The tokens behind the indentation stand for all that is there but blanks. -/
theorem spelled_scan (line : Nat) {before characters : List Char}
    (apart : NoRunAcross before characters) (noFault : (scan line characters).2 = none) :
    Spelled before characters (scan line characters).1 := by
  fun_induction scan line characters generalizing before with
  | case1 => exact .blank (List.forall_mem_nil _)
  | case2 c rest blank ih =>
      exact Spelled.behind_blank blank (ih (noRunAcross_blank blank rest) noFault)
  | case3 c rest visible fault failed => cases noFault
  | case4 c rest visible found success tokens fault scanned ih =>
      -- The lexeme ends where no run goes on, which is what the rest of the line needs to know.
      obtain ⟨text, nonempty, split, stands, ends⟩ := takes_of_lexeme apart success
      rw [scanned] at ih
      rw [split]
      exact .first stands (ih (ends.append nonempty) noFault)

end Lexing

/-! ### Source texts -/

/-- The tokens of the line with the given number that stand for characters. -/
def contentOf (number : Nat) (tokens : List Token) : List Token :=
  tokens.filter fun token => token.line = number && !token.kind.isLayout

theorem contentOf_append (number : Nat) (front back : List Token) :
    contentOf number (front ++ back) = contentOf number front ++ contentOf number back :=
  List.filter_append front back

theorem contentOf_eq_nil {number : Nat} {tokens : List Token}
    (elsewhere : ∀ token ∈ tokens, token.kind.isLayout = false → token.line ≠ number) :
    contentOf number tokens = [] := by
  refine List.filter_eq_nil_iff.mpr fun token member isContent => ?_
  simp only [Bool.and_eq_true, decide_eq_true_eq, Bool.not_eq_true'] at isContent
  exact elsewhere token member isContent.2 isContent.1

namespace Lexing

theorem isLayout_of_mem_closings {line count : Nat} {token : Token}
    (member : token ∈ List.replicate count (Token.closing line)) : token.kind.isLayout = true := by
  rw [List.eq_of_mem_replicate member]
  rfl

theorem isLayout_of_mem_layout {line width : Nat} {widths : List Nat} {token : Token}
    (member : token ∈ (layout line width widths).1) : token.kind.isLayout = true := by
  unfold layout at member
  dsimp only at member
  by_cases wider : (closeWider width widths).2.headD 0 < width
  · rw [if_pos wider] at member
    rcases List.mem_cons.mp member with rfl | closing
    · rfl
    · exact isLayout_of_mem_closings closing
  · rw [if_neg wider] at member
    exact isLayout_of_mem_closings member

theorem contentOf_layout (number line width : Nat) (widths : List Nat) :
    contentOf number (layout line width widths).1 = [] := by
  refine contentOf_eq_nil fun token member isContent => ?_
  rw [isLayout_of_mem_layout member] at isContent
  cases isContent

theorem contentOf_scan (line : Nat) (characters : List Char) :
    contentOf line (scan line characters).1 = (scan line characters).1 := by
  refine List.filter_eq_self.mpr fun token member => ?_
  obtain ⟨sameLine, isContent⟩ := isLayout_of_mem_scan line characters token member
  rw [sameLine, isContent]
  simp

theorem contentOf_scan_of_ne {line number : Nat} (elsewhere : line ≠ number)
    (characters : List Char) : contentOf number (scan line characters).1 = [] := by
  refine contentOf_eq_nil fun token member _ => ?_
  rwa [(isLayout_of_mem_scan line characters token member).1]

/-- Behind a line there are no tokens for its characters. -/
theorem contentOf_cut_of_lt {line next number : Nat} (earlier : number < next) (widths : List Nat)
    {rows : List (List Char)} (clean : ∀ row ∈ rows, Clean row) :
    contentOf number (cut line next widths rows).tokens = [] := by
  induction rows generalizing line next widths with
  | nil =>
      refine contentOf_eq_nil fun token member isContent => ?_
      rcases List.mem_append.mp member with closing | final
      · rw [isLayout_of_mem_closings closing] at isContent
        cases isContent
      · rw [List.mem_singleton.mp final] at isContent
        cases isContent
  | cons row rows ih =>
      obtain ⟨first, others⟩ := List.forall_mem_cons.mp clean
      rw [cut_cons_of_clean first, contentOf_append, contentOf_append, contentOf_layout,
        contentOf_scan_of_ne (Nat.ne_of_gt earlier), ih (Nat.lt_succ_of_lt earlier) _ others]
      rfl

/-- The tokens of a line are found behind its indentation. -/
theorem contentOf_cut {line next index : Nat} (widths : List Nat) {rows : List (List Char)}
    {row : List Char} (clean : ∀ row ∈ rows, Clean row) (there : rows[index]? = some row) :
    contentOf (next + index) (cut line next widths rows).tokens =
      (scan (next + index) (row.drop (indentation row))).1 := by
  induction rows generalizing line next widths index with
  | nil => cases there
  | cons first rows ih =>
      obtain ⟨cleanFirst, others⟩ := List.forall_mem_cons.mp clean
      rw [cut_cons_of_clean cleanFirst, contentOf_append, contentOf_append, contentOf_layout,
        List.nil_append]
      cases index with
      | zero =>
          cases there
          rw [Nat.add_zero, contentOf_scan, contentOf_cut_of_lt (Nat.lt_succ_self next) _ others,
            List.append_nil]
      | succ index =>
          have later : next + (index + 1) = next + 1 + index := by omega
          rw [contentOf_scan_of_ne (by omega), List.nil_append, later]
          exact ih _ others there

end Lexing

/-- In a source text that can be cut up, every line is made of the texts of its tokens in their order,
with blanks before, between and behind them. -/
theorem line_spelled_by_tokens {source : String} {tokens : List Token}
    (lexed : tokenize source = .ok tokens) {index : Nat} {row : List Char}
    (there : (Text.lines source.toList)[index]? = some row) :
    Spelled [] row (contentOf (index + 1) tokens) := by
  have clean := exists_tokenize_iff.mp ⟨tokens, lexed⟩
  obtain ⟨_, rfl⟩ := tokenize_eq_ok_iff.mp lexed
  have noFault := (Lexing.clean_iff (1 + index)).mp (clean row (List.mem_of_getElem? there))
  have whole : Lexing.scan (1 + index) (row.drop (Lexing.indentation row)) =
      Lexing.scan (1 + index) row := by
    rw [Lexing.scan_drop_indentation, Lexing.scan_dropWhile]
  rw [Nat.add_comm index, Lexing.contentOf_cut [0] clean there, whole]
  rw [whole] at noFault
  exact Lexing.spelled_scan _ (fun _ _ _ _ last => by cases last) noFault

def crowded : String :=
  "if (a1==12):\n  \"x\"\"=\"===_b2\t7c\n"

theorem line_spelled_by_tokens_crowded :
    ∃ tokens, tokenize crowded = .ok tokens ∧
      (contentOf 2 tokens).map Token.kind =
        [.string, .string, .symbol .equals, .symbol .assign, .identifier, .number, .identifier] ∧
      Spelled [] "  \"x\"\"=\"===_b2\t7c".toList (contentOf 2 tokens) := by
  have lexed : tokenize crowded =
      .ok (Lexing.cut 1 1 [0] (Text.lines crowded.toList)).tokens :=
    tokenize_eq_ok_iff.mpr ⟨by decide +kernel, rfl⟩
  exact ⟨_, lexed, by decide +kernel, line_spelled_by_tokens lexed (by decide +kernel)⟩

end IndentScript
