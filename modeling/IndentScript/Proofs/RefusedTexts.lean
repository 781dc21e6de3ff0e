import IndentScript.Proofs.EntryFailures
import IndentScript.Proofs.Lexemes
import IndentScript.Proofs.Rendering
import IndentScript.Proofs.SqueezedCode

/-!
Source texts that are refused before anything is run, and what is said about them.

A line is cut up until something in it is not the text of a token: a quote that is never closed, a
character that belongs to nothing, or a run of digits that is no numeral. A run of digits is as long as
the characters look like digits; a numeral takes decimal digits only, and not too many of them. So there
are digits that make no numeral, and a text with them is refused like one that is not well formed, but
not as one: it counts as failed in its run. The same holds of a text that nests too deep.
-/

namespace IndentScript

/-! ### Digits that make no numeral -/

namespace Number

def isDecimal (c : Char) : Bool :=
  (Text.decimalValue? c).isSome

/-- Why a run of digits is no numeral. The decimal digits at its front are counted before the others
are looked at. -/
inductive Misread (run : List Char) : NumeralFault → Prop where
  | long : digitLimit < (run.takeWhile isDecimal).length →
    Misread run (.tooLongToRead (run.takeWhile isDecimal).length)
  | foreign {c : Char} : c ∈ run → isDecimal c = false →
    (run.takeWhile isDecimal).length ≤ digitLimit → Misread run (.notANumeral (String.ofList run))

theorem ne_underscore_of_isDigit {c : Char} (digit : Text.isDigit c = true) : c ≠ '_' := by
  rintro rfl
  revert digit
  decide

theorem leadingDigits_of_isDigit {run : List Char} (digits : ∀ c ∈ run, Text.isDigit c = true) :
    ∃ values, leadingDigits run = some (values, run.dropWhile isDecimal) ∧
      values.length = (run.takeWhile isDecimal).length := by
  induction run with
  | nil => exact ⟨[], rfl, rfl⟩
  | cons c rest ih =>
      obtain ⟨digit, others⟩ := List.forall_mem_cons.mp digits
      have noUnderscore := ne_underscore_of_isDigit digit
      obtain ⟨values, read, length⟩ := ih others
      rw [leadingDigits]
      · rw [if_neg noUnderscore]
        cases decimal : Text.decimalValue? c with
        | none => simp [decimal, isDecimal]
        | some value => simp [decimal, isDecimal, read, length]
      · intro d tail same _
        exact noUnderscore same

theorem readDigits_eq_error_iff {run : List Char} (nonempty : run ≠ [])
    (digits : ∀ c ∈ run, Text.isDigit c = true) {fault : NumeralFault} :
    readDigits (String.ofList run) run = .error fault ↔ Misread run fault := by
  obtain ⟨values, read, length⟩ := leadingDigits_of_isDigit digits
  have noUnderscore : run.head? ≠ some '_' := by
    intro first
    exact ne_underscore_of_isDigit (digits _ (List.mem_of_head? first)) rfl
  have split := List.takeWhile_append_dropWhile (p := isDecimal) (l := run)
  rw [readDigits, if_neg noUnderscore, read]
  dsimp only
  by_cases long : digitLimit < values.length
  · rw [if_pos long, length]
    rw [length] at long
    constructor
    · intro same
      cases same
      exact .long long
    · intro misread
      cases misread with
      | long _ => rfl
      | foreign _ _ short => omega
  · rw [if_neg long]
    rw [length] at long
    cases rest : run.dropWhile isDecimal with
    | nil =>
        -- all digits are decimal, so there is at least one
        rw [rest, List.append_nil] at split
        have some : values ≠ [] := by
          rintro rfl
          rw [List.length_nil, split, eq_comm, List.length_eq_zero_iff] at length
          exact nonempty length
        have allDecimal : ∀ c ∈ run, isDecimal c = true := by
          rw [← split]
          exact fun c member => List.mem_takeWhile_imp member
        simp only [List.isEmpty_eq_false_iff.mpr some, List.isEmpty_nil, Bool.not_true, Bool.or_false,
          Bool.false_eq_true, if_false, reduceCtorEq, false_iff]
        intro misread
        cases misread with
        | long isLong => exact long isLong
        | foreign member noDecimal _ =>
            rw [allDecimal _ member] at noDecimal
            cases noDecimal
    | cons c others =>
        have noDecimal : isDecimal c = false := Lexing.head?_dropWhile c (by rw [rest]; rfl)
        have member : c ∈ run := by
          rw [← split, rest]
          simp
        simp only [List.isEmpty_cons, Bool.not_false, Bool.or_true, if_true, Except.error.injEq]
        constructor
        · rintro rfl
          exact .foreign member noDecimal (Nat.le_of_not_lt long)
        · intro misread
          cases misread with
          | long isLong => exact absurd isLong long
          | foreign _ _ _ => rfl

end Number

/-! ### Faults of lines -/

/-- What makes the characters start with no token. They stand behind `before` on their line. -/
inductive Offends (line : Nat) (before : List Char) : List Char → LexicalFault → Prop where
  | string {rest : List Char} : '"' ∉ rest → Offends line before ('"' :: rest) (.unterminatedString line)
  | character {c : Char} {rest : List Char} : Text.isBlank c = false → c ≠ '"' →
    Text.isDigit c = false → Lexing.startsWord c = false → Symbol.ofCharacter? c = none →
    Offends line before (c :: rest) (.unknownCharacter c line)
  | numeral {run after : List Char} {fault : Number.NumeralFault} : DigitRun before run after →
    Number.Misread run fault → Offends line before (run ++ after) (.numeral fault)

/-- Tokens stand for the characters of the row, with nothing but blanks around them, up to a place
where there is the fault. The line has `before` in front of the row. -/
inductive Faulty (line : Nat) : List Char → List Char → LexicalFault → Prop where
  | here {before gap rest : List Char} {fault : LexicalFault}
      (blank : ∀ c ∈ gap, Text.isBlank c = true) (offends : Offends line (before ++ gap) rest fault) :
      Faulty line before (gap ++ rest) fault
  | token {before gap text after : List Char} {token : Token} {fault : LexicalFault}
      (blank : ∀ c ∈ gap, Text.isBlank c = true)
      (stands : token.StandsFor (before ++ gap) text after)
      (others : Faulty line (before ++ (gap ++ text)) after fault) :
      Faulty line before (gap ++ (text ++ after)) fault

theorem Faulty.behind_blank {line : Nat} {before row : List Char} {c : Char} {fault : LexicalFault}
    (blank : Text.isBlank c = true) (faulty : Faulty line (before ++ [c]) row fault) :
    Faulty line before (c :: row) fault := by
  cases faulty with
  | @here _ gap rest _ gapBlank offends =>
      rw [List.append_assoc, List.singleton_append] at offends
      exact @Faulty.here line before (c :: gap) rest fault
        (List.forall_mem_cons.mpr ⟨blank, gapBlank⟩) offends
  | @token _ gap text after _ _ gapBlank stands others =>
      rw [List.append_assoc, List.singleton_append] at stands others
      exact @Faulty.token line before (c :: gap) text after _ fault
        (List.forall_mem_cons.mpr ⟨blank, gapBlank⟩) stands others

namespace Lexing

/-! Tokens and faults are found where they stand. -/

theorem lexeme_of_wordRun {text after : List Char} (word : WordRun text after) (line : Nat) :
    ∃ c others, text = c :: others ∧ Text.isBlank c = false ∧
      lexeme line c (others ++ after) =
        .ok ⟨wordKind (String.ofList text), .text (String.ofList text), after⟩ := by
  obtain ⟨⟨c, first, starts⟩, continues, stops⟩ := word
  obtain ⟨others, rfl⟩ := List.head?_eq_some_iff.mp first
  obtain ⟨continuesFirst, continuesOthers⟩ := List.forall_mem_cons.mp continues
  exact ⟨c, others, rfl, isBlank_eq_false_of_continuesWord continuesFirst,
    Piece.lexeme_of_word line starts continuesOthers stops⟩

theorem lexeme_of_digitRun {before text after : List Char} (run : DigitRun before text after)
    (line : Nat) :
    ∃ c others, text = c :: others ∧ Text.isBlank c = false ∧ Text.isDigit c = true ∧
      (∀ value, Number.readDigits (String.ofList text) text = .ok value →
        lexeme line c (others ++ after) = .ok ⟨.number, .number value, after⟩) ∧
      ∀ fault, Number.readDigits (String.ofList text) text = .error fault →
        lexeme line c (others ++ after) = .error (.numeral fault) := by
  obtain ⟨nonempty, digits, _, stops⟩ := run
  obtain ⟨c, others, rfl⟩ := List.exists_cons_of_ne_nil nonempty
  obtain ⟨digit, otherDigits⟩ := List.forall_mem_cons.mp digits
  have noQuote : c ≠ '"' := by
    rintro rfl
    revert digit
    decide
  obtain ⟨taken, left⟩ := Piece.run_stops otherDigits stops
  refine ⟨c, others, rfl, Text.isBlank_eq_false_of_isDigit digit, digit, ?_, ?_⟩
  · intro value read
    rw [lexeme, if_neg noQuote, if_pos digit, taken, left]
    simp only [read]
  · intro fault failed
    rw [lexeme, if_neg noQuote, if_pos digit, taken]
    simp only [failed]

theorem lexeme_of_sign {sign : Symbol} {text after : List Char}
    (spelled : sign.spelling = String.ofList text) (single : sign = .assign → after.head? ≠ some '=')
    (line : Nat) :
    ∃ c others, text = c :: others ∧ Text.isBlank c = false ∧
      lexeme line c (others ++ after) = .ok ⟨.symbol sign, .text sign.spelling, after⟩ := by
  have characters : text = sign.spelling.toList := by rw [spelled, String.toList_ofList]
  subst characters
  rcases Piece.spelling_cases sign with rfl | rfl | ⟨c, same, visible, alone⟩
  · exact ⟨'=', [], rfl, by decide, Piece.lexeme_of_assign line (single rfl)⟩
  · exact ⟨'=', ['='], rfl, by decide, Piece.lexeme_of_equals line after⟩
  · exact ⟨c, [], same, visible, Piece.lexeme_of_standsAlone line alone after⟩

theorem lexeme_of_standsFor {token : Token} {before text after : List Char}
    (stands : token.StandsFor before text after) (line : Nat) :
    ∃ c others, text = c :: others ∧ Text.isBlank c = false ∧
      lexeme line c (others ++ after) = .ok ⟨token.kind, token.payload, after⟩ := by
  obtain ⟨kind, payload, number⟩ := token
  cases kind with
  | string =>
      obtain ⟨content, rfl, rfl, plain⟩ := stands
      have found := @Piece.lexeme_of_quoted line content.toList after
        fun c member same => plain (same ▸ member)
      rw [String.ofList_toList] at found
      refine ⟨'"', content.toList ++ ['"'], rfl, by decide, ?_⟩
      rwa [List.append_assoc, List.singleton_append]
  | number =>
      obtain ⟨value, rfl, run, read⟩ := stands
      obtain ⟨c, others, rfl, visible, digit, found, _⟩ := lexeme_of_digitRun run line
      rw [readInteger_of_isDigit digit _ String.toList_ofList] at read
      cases readDigits : Number.readDigits (String.ofList (c :: others)) (c :: others) with
      | error fault =>
          rw [readDigits] at read
          cases read
      | ok magnitude =>
          rw [readDigits] at read
          cases read
          exact ⟨c, others, rfl, visible, found magnitude readDigits⟩
  | identifier =>
      obtain ⟨rfl, word, other⟩ := stands
      rcases wordKind_cases (String.ofList text) with ⟨keyword, known, _⟩ | ⟨_, same⟩
      · exact absurd (Keyword.spelling_of_ofSpelling? known) (other keyword)
      · have found := lexeme_of_wordRun word line
        rwa [same] at found
  | keyword keyword =>
      obtain ⟨rfl, word, spelled⟩ := stands
      have same : wordKind (String.ofList text) = .keyword keyword := by
        rw [wordKind, ← spelled, Keyword.ofSpelling?_spelling]
      have found := lexeme_of_wordRun word line
      rwa [same] at found
  | symbol sign =>
      obtain ⟨rfl, spelled, single⟩ := stands
      rw [← spelled]
      exact lexeme_of_sign spelled single line
  | indent | dedent | endOfSource | other => cases stands

theorem lexeme_of_offends {line : Nat} {before row : List Char} {fault : LexicalFault}
    (offends : Offends line before row fault) :
    ∃ c rest, row = c :: rest ∧ Text.isBlank c = false ∧ lexeme line c rest = .error fault := by
  cases offends with
  | @string rest unclosed =>
      have dropped : rest.dropWhile (· ≠ '"') = [] := by
        rw [List.dropWhile_eq_nil_iff]
        intro c member
        simpa using fun same : c = '"' => unclosed (same ▸ member)
      refine ⟨'"', rest, rfl, by decide, ?_⟩
      rw [lexeme, if_pos rfl, dropped]
  | @character c rest visible noQuote noDigit noWord noSign =>
      refine ⟨c, rest, rfl, visible, ?_⟩
      have notDouble : ¬(c = '=' ∧ rest.head? = some '=') := by
        rintro ⟨rfl, _⟩
        cases noSign
      rw [lexeme, if_neg noQuote, noDigit, if_neg Bool.false_ne_true, noWord,
        if_neg Bool.false_ne_true, if_neg notDouble, noSign]
  | @numeral run after fault digits misread =>
      have failed := (Number.readDigits_eq_error_iff digits.nonempty digits.digits).mpr misread
      obtain ⟨c, others, rfl, visible, _, _, found⟩ := lexeme_of_digitRun digits line
      exact ⟨c, others ++ after, rfl, visible, found fault failed⟩

/-- Every fault of a lexeme is one of what stands there. -/
theorem offends_of_lexeme {line : Nat} {before : List Char} {c : Char} {rest : List Char}
    {fault : LexicalFault} (apart : NoRunAcross before (c :: rest)) (visible : Text.isBlank c = false)
    (failed : lexeme line c rest = .error fault) : Offends line before (c :: rest) fault := by
  unfold lexeme at failed
  by_cases quote : c = '"'
  · rw [if_pos quote] at failed
    cases closed : rest.dropWhile (· ≠ '"') with
    | nil =>
        rw [closed] at failed
        cases failed
        rw [quote]
        apply Offends.string
        intro member
        simpa using List.dropWhile_eq_nil_iff.mp closed '"' member
    | cons quoteEnd after =>
        rw [closed] at failed
        cases failed
  rw [if_neg quote] at failed
  by_cases digit : Text.isDigit c = true
  · rw [if_pos digit] at failed
    dsimp only at failed
    have digits : ∀ d ∈ c :: rest.takeWhile Text.isDigit, Text.isDigit d = true :=
      List.forall_mem_cons.mpr ⟨digit, fun d member => List.mem_takeWhile_imp member⟩
    have run : DigitRun before (c :: rest.takeWhile Text.isDigit) (rest.dropWhile Text.isDigit) :=
      ⟨List.cons_ne_nil _ _, digits, apart c rfl digit, head?_dropWhile⟩
    cases read : Number.readDigits (String.ofList (c :: rest.takeWhile Text.isDigit))
        (c :: rest.takeWhile Text.isDigit) with
    | ok value =>
        rw [read] at failed
        cases failed
    | error cause =>
        rw [read] at failed
        cases failed
        have offends := @Offends.numeral line before _ _ cause run
          ((Number.readDigits_eq_error_iff run.nonempty digits).mp read)
        rwa [List.cons_append, List.takeWhile_append_dropWhile] at offends
  rw [if_neg digit] at failed
  by_cases starts : startsWord c = true
  · rw [if_pos starts] at failed
    cases failed
  rw [if_neg starts] at failed
  by_cases doubled : c = '=' ∧ rest.head? = some '='
  · rw [if_pos doubled] at failed
    cases failed
  rw [if_neg doubled] at failed
  cases known : Symbol.ofCharacter? c with
  | some sign =>
      rw [known] at failed
      cases failed
  | none =>
      rw [known] at failed
      cases failed
      exact .character visible quote (Bool.not_eq_true _ ▸ digit) (Bool.not_eq_true _ ▸ starts) known

/-! ### Whole lines -/

theorem scan_of_standsFor {token : Token} {before gap text after : List Char}
    (blank : ∀ c ∈ gap, Text.isBlank c = true) (stands : token.StandsFor before text after)
    (line : Nat) : (scan line (gap ++ (text ++ after))).2 = (scan line after).2 := by
  obtain ⟨c, others, rfl, visible, found⟩ := lexeme_of_standsFor stands line
  rw [scan_blanks_append blank, List.cons_append, scan_cons_ok (by simp [visible]) found]

theorem scan_of_spelled {before row : List Char} {tokens : List Token}
    (spelled : Spelled before row tokens) (line : Nat) : (scan line row).2 = none := by
  induction spelled with
  | @blank _ row blank =>
      have passed := scan_blanks_append blank line []
      rw [List.append_nil] at passed
      rw [passed, scan]
  | token blank stands _ ih => rw [scan_of_standsFor blank stands, ih]

theorem scan_of_faulty {line : Nat} {before row : List Char} {fault : LexicalFault}
    (faulty : Faulty line before row fault) : (scan line row).2 = some fault := by
  induction faulty with
  | here blank offends =>
      obtain ⟨c, rest, rfl, visible, failed⟩ := lexeme_of_offends offends
      rw [scan_blanks_append blank, scan_cons_error (by simp [visible]) failed]
  | token blank stands _ ih => rw [scan_of_standsFor blank stands, ih]

theorem faulty_of_scan (line : Nat) {before characters : List Char} {fault : LexicalFault}
    (apart : NoRunAcross before characters) (stopped : (scan line characters).2 = some fault) :
    Faulty line before characters fault := by
  fun_induction scan line characters generalizing before with
  | case1 => cases stopped
  | case2 c rest blank ih =>
      exact Faulty.behind_blank blank (ih (noRunAcross_blank blank rest) stopped)
  | case3 c rest visible found failed =>
      cases stopped
      have offends := offends_of_lexeme apart (by simpa using visible) failed
      rw [← List.append_nil before] at offends
      exact @Faulty.here line before [] (c :: rest) _ (List.forall_mem_nil _) offends
  | case4 c rest visible found success tokens _ scanned ih =>
      obtain ⟨text, nonempty, split, stands, ends⟩ := takes_of_lexeme apart success
      rw [scanned] at ih
      rw [split]
      rw [← List.append_nil before] at stands
      exact @Faulty.token line before [] text found.rest _ fault (List.forall_mem_nil _) stands
        (ih (ends.append nonempty) stopped)

theorem noRunAcross_nil (after : List Char) : NoRunAcross [] after := by
  intro _ _ _ d last
  cases last

theorem scan_indented (line : Nat) (row : List Char) :
    scan line (row.drop (indentation row)) = scan line row :=
  (scan_drop_indentation line row).trans (scan_dropWhile line row)

theorem clean_iff_spelled {row : List Char} : Clean row ↔ ∃ tokens, Spelled [] row tokens := by
  rw [clean_iff 1, scan_indented]
  constructor
  · intro noFault
    exact ⟨_, spelled_scan 1 (noRunAcross_nil row) noFault⟩
  · rintro ⟨tokens, spelled⟩
    exact scan_of_spelled spelled 1

theorem scan_eq_some_iff {line : Nat} {row : List Char} {fault : LexicalFault} :
    (scan line row).2 = some fault ↔ Faulty line [] row fault :=
  ⟨faulty_of_scan line (noRunAcross_nil row), scan_of_faulty⟩

/-! ### Source texts -/

/-- The first line with a fault stops the work. -/
theorem cut_fault_eq_some_iff {line next : Nat} {widths : List Nat} {rows : List (List Char)}
    {fault : LexicalFault} : (cut line next widths rows).fault = some fault ↔
      ∃ front row back, rows = front ++ row :: back ∧ (∀ other ∈ front, Clean other) ∧
        (scan (next + front.length) row).2 = some fault := by
  induction rows generalizing line next widths with
  | nil => simp [cut]
  | cons row rows ih =>
      rw [cut, scan_indented]
      dsimp only
      cases scanned : (scan next row).2 with
      | some found =>
          constructor
          · intro same
            cases same
            exact ⟨[], row, rows, rfl, List.forall_mem_nil _, scanned⟩
          · rintro ⟨front, other, back, split, clean, stopped⟩
            cases front with
            | nil =>
                cases split
                rw [List.length_nil, Nat.add_zero, scanned] at stopped
                exact stopped
            | cons first more =>
                cases split
                have noFault := (clean_iff next).mp (clean row List.mem_cons_self)
                rw [scan_indented, scanned] at noFault
                cases noFault
      | none =>
          have clean : Clean row := by rw [clean_iff next, scan_indented, scanned]
          dsimp only
          rw [ih]
          constructor
          · rintro ⟨front, other, back, rfl, cleanFront, stopped⟩
            refine ⟨row :: front, other, back, rfl, List.forall_mem_cons.mpr ⟨clean, cleanFront⟩, ?_⟩
            rwa [List.length_cons, Nat.add_comm front.length, ← Nat.add_assoc]
          · rintro ⟨front, other, back, split, cleanFront, stopped⟩
            cases front with
            | nil =>
                cases split
                rw [List.length_nil, Nat.add_zero, scanned] at stopped
                cases stopped
            | cons first more =>
                cases split
                refine ⟨more, other, back, rfl, (List.forall_mem_cons.mp cleanFront).2, ?_⟩
                rwa [Nat.add_assoc, Nat.add_comm 1, ← List.length_cons]

end Lexing

theorem tokenize_eq_error_iff {source : String} {fault : LexicalFault} :
    tokenize source = .error fault ↔
      (Lexing.cut 1 1 [0] (Text.lines source.toList)).fault = some fault := by
  rw [tokenize, Lexer.tokenize, Lexer.new]
  cases (Lexing.cut 1 1 [0] (Text.lines source.toList)).fault with
  | none => simp
  | some found => simp

/-- The fault of a source text is that of its first line that tokens do not stand for. -/
theorem tokenize_eq_error_iff_faulty {source : String} {fault : LexicalFault} :
    tokenize source = .error fault ↔
      ∃ front row back, Text.lines source.toList = front ++ row :: back ∧
        (∀ other ∈ front, ∃ tokens, Spelled [] other tokens) ∧
        Faulty (front.length + 1) [] row fault := by
  simp only [tokenize_eq_error_iff, Lexing.cut_fault_eq_some_iff, Lexing.clean_iff_spelled,
    Lexing.scan_eq_some_iff, Nat.add_comm 1]

theorem fault_of_parse [Limits] {source : String} {tokens : List Token}
    (lexed : tokenize source = .ok tokens) {failure : ParseFailure}
    (failed : parse tokens = .error failure) :
    failure.fault.isSyntactic = true ∨
      failure.fault = .tooDeep ∧ Parser.nestingLimit < tokens.length := by
  obtain ⟨noFault, rfl⟩ := tokenize_eq_ok_iff.mp lexed
  obtain ⟨_, ended⟩ := Lexing.laidOut_cut (Text.lines source.toList)
  obtain ⟨_, inner, final, split, isFinal, _⟩ := ended noFault
  have nonempty : inner ++ [final] ≠ [] := by simp
  rw [split, parse, parseWithin_eq_map nonempty] at failed
  rw [split, List.length_append, List.length_singleton]
  rcases Parser.Confined.ends isFinal (fun more =>
      Parser.confined_program ⟨final, final, more, isFinal⟩ isFinal Parser.nestingLimit) inner with
    ⟨program, left, _, ends⟩ | ⟨fault, left, _, allowed, ends⟩
  · rw [ends] at failed
    cases failed
  · rw [ends] at failed
    cases failed
    rcases allowed with syntactic | ⟨deep, long⟩
    · exact .inl syntactic
    · exact .inr ⟨deep, by omega⟩

namespace Failure

theorem isSyntactic_syntactic (failure : ParseFailure) :
    (syntactic failure).isSyntactic = failure.fault.isSyntactic := by
  obtain ⟨fault, rest⟩ := failure
  cases fault with
  | _ => rfl

theorem isSyntactic_lexical (fault : LexicalFault) :
    (lexical fault).isSyntactic = false ↔ ∃ cause, fault = .numeral cause := by
  cases fault with
  | numeral cause => simp [isSyntactic]
  | _ => simp [isSyntactic]

end Failure

/-- A source text has a fault where its first line has one that tokens do not stand for: a string
without an end, a character that belongs to nothing, or digits that make no numeral. A text that is
refused before it is run is reported as not well formed, with two exceptions, which are reported like
failures of a run: its digits make no numeral, or it nests too deep. -/
theorem source_text_refusals [Limits] (source : String) :
    (∀ fault, tokenize source = .error fault ↔
      ∃ front row back, Text.lines source.toList = front ++ row :: back ∧
        (∀ other ∈ front, ∃ tokens, Spelled [] other tokens) ∧
        Faulty (front.length + 1) [] row fault) ∧
    ∀ failure, compile source = .error failure →
      (failure.isSyntactic = false ↔
        (∃ fault, tokenize source = .error (.numeral fault)) ∨
        ∃ tokens rest, tokenize source = .ok tokens ∧ parse tokens = .error ⟨.tooDeep, rest⟩ ∧
          Parser.nestingLimit < tokens.length) ∧
      ∀ (terminal : Terminal) text, Closes text → terminal.pending ++ text = source →
        ∃ message, failure.message = .ok message ∧
          (Dialog.feed text).run.run terminal = (.ok (), { terminal.closed with
            machine := terminal.machine.written
              (.plain (if failure.isSyntactic then "Syntax Error: " else "Runtime Error: ") ++ message
                ++ .plain "\n")
            history := terminal.history.push source }) := by
  refine ⟨fun fault => tokenize_eq_error_iff_faulty, ?_⟩
  intro failure refused
  constructor
  · rcases compile_eq_error refused with ⟨fault, lexed, rfl⟩ | ⟨tokens, found, lexed, parsed, rfl⟩
    · rw [Failure.isSyntactic_lexical, lexed]
      simp
    · rw [Failure.isSyntactic_syntactic, lexed]
      rcases fault_of_parse lexed parsed with syntactic | ⟨deep, long⟩
      · rw [syntactic]
        simp only [reduceCtorEq, exists_false, false_or, Except.ok.injEq, false_iff]
        rintro ⟨_, rest, rfl, deep, _⟩
        rw [deep] at parsed
        cases parsed
        cases syntactic
      · obtain ⟨fault, rest⟩ := found
        cases deep
        simp [ParseFault.isSyntactic, parsed, long]
  · rintro terminal text closes rfl
    have ran : terminal.machine.runSource (terminal.pending ++ text) =
        (some failure, terminal.machine) := by rw [Machine.runSource, refused]
    have fed := Dialog.run_feed_ending closes terminal
    rw [ran] at fed
    rcases compile_eq_error refused with ⟨fault, _, rfl⟩ | ⟨_, found, _, _, rfl⟩
    · exact ⟨_, rfl, fed⟩
    · exact ⟨_, rfl, fed⟩

/-- A superscript two looks like a digit and is no decimal digit: the fault is not one of syntax. -/
theorem tokenize_superscript :
    (Lexer.new "²").tokenize.2 = some (.numeral (.notANumeral "²")) ∧
      ((Dialog.feed "²").run.run Terminal.bare).2.machine.console.output =
        .plain "Runtime Error: invalid literal for int() with base 10: '²'\n" := by
  decide +kernel

end IndentScript
