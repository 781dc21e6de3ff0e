import IndentScript.Proofs.EmptyBlocks
import IndentScript.Proofs.Frames
import IndentScript.Proofs.SqueezedCode

/-!
Texts that are evaluated from a command line. The text is put between the parentheses of a print
statement, and the whole is run as a program. Printing binds no name. But the text may close the
parenthesis in front of it, and then statements can follow that are run, too. It does so exactly if one
of its parentheses closes none that the text itself has opened.
-/

namespace IndentScript

/-! ### Open parentheses -/

/-- How many parentheses are open behind the token, where `depth` are open before it. A parenthesis can
be closed only if one is open. -/
def Token.nest (depth : Nat) (token : Token) : Option Nat :=
  if token.kind = .symbol .openParen then some (depth + 1)
  else if token.kind = .symbol .closeParen then
    if depth = 0 then none else some (depth - 1)
  else some depth

/-- How many parentheses are open behind the tokens, unless one is closed that was not open. -/
def parenDepth (depth : Nat) (tokens : List Token) : Option Nat :=
  tokens.foldlM Token.nest depth

def Balanced (tokens : List Token) : Prop :=
  ∀ depth, parenDepth depth tokens = some depth

theorem parenDepth_cons (depth : Nat) (token : Token) (tokens : List Token) :
    parenDepth depth (token :: tokens) = (token.nest depth).bind (parenDepth · tokens) :=
  rfl

/-- A parenthesis is closed behind balanced tokens that was not opened by them. -/
theorem parenDepth_zero_close {closing : Token} (closes : closing.kind = .symbol .closeParen)
    (tokens : List Token) : parenDepth 0 (closing :: tokens) = none := by
  rw [parenDepth_cons, Token.nest, closes, if_neg (by decide), if_pos rfl, if_pos rfl]
  rfl

theorem parenDepth_append (depth : Nat) (front back : List Token) :
    parenDepth depth (front ++ back) = (parenDepth depth front).bind (parenDepth · back) :=
  List.foldlM_append

namespace Balanced

theorem nil : Balanced [] :=
  fun _ => rfl

theorem append {front back : List Token} (balancedFront : Balanced front) (balancedBack : Balanced back) :
    Balanced (front ++ back) := by
  intro depth
  rw [parenDepth_append, balancedFront, Option.bind_some, balancedBack]

theorem cons {token : Token} {kind : Kind} (same : token.kind = kind)
    (plain : kind ≠ .symbol .openParen ∧ kind ≠ .symbol .closeParen) {tokens : List Token}
    (balanced : Balanced tokens) : Balanced (token :: tokens) := by
  intro depth
  rw [parenDepth_cons, Token.nest, same, if_neg plain.1, if_neg plain.2, Option.bind_some, balanced]

theorem parenthesized {opening closing : Token} (opens : opening.kind = .symbol .openParen)
    (closes : closing.kind = .symbol .closeParen) {tokens : List Token} (balanced : Balanced tokens) :
    Balanced (opening :: (tokens ++ [closing])) := by
  intro depth
  rw [parenDepth_cons, Token.nest, if_pos opens, Option.bind_some, parenDepth_append, balanced,
    Option.bind_some, parenDepth_cons, Token.nest, closes, if_neg (by decide), if_pos rfl,
    if_neg (Nat.succ_ne_zero depth)]
  rfl

end Balanced

namespace Grammar

theorem plain_tighter : ∀ operator ∈ Operator.tighter,
    operator.kind ≠ .symbol .openParen ∧ operator.kind ≠ .symbol .closeParen := by
  decide

theorem plain_looser : ∀ operator ∈ Operator.looser,
    operator.kind ≠ .symbol .openParen ∧ operator.kind ≠ .symbol .closeParen := by
  decide

theorem OptionalComma.balanced {taken : List Token} (comma : OptionalComma taken) : Balanced taken := by
  cases comma with
  | absent => exact .nil
  | present kind => exact .cons kind (by decide) .nil

theorem Yields.balanced {phrase : Phrase} {taken : List Token} (yields : Yields phrase taken) :
    Balanced taken := by
  induction yields with
  | constant kind =>
      rcases kind with kind | kind
      · exact .cons kind (by decide) .nil
      · exact .cons kind (by decide) .nil
  | truth kind =>
      rcases kind with kind | kind
      · exact .cons kind (by decide) .nil
      · exact .cons kind (by decide) .nil
  | «variable» kind => exact .cons kind (by decide) .nil
  | call nameKind opens _ closes ih => exact .cons nameKind (by decide) (.parenthesized opens closes ih)
  | group opens _ closes ih => exact .parenthesized opens closes ih
  | operand _ ih => exact ih
  | compare _ known same _ ihLeft ihRight => exact ihLeft.append (.cons same (plain_tighter _ known) ihRight)
  | comparison _ ih => exact ih
  | join _ known same _ ihLeft ihRight => exact ihLeft.append (.cons same (plain_looser _ known) ihRight)
  | noArgument => exact .nil
  | argument _ comma _ ihValue ihValues => exact ihValue.append (comma.balanced.append ihValues)

/-- A statement that starts with the word for printing is a print statement. -/
theorem Derives.print_of_word {word : Token} (isPrint : word.kind = .keyword .printlineWord)
    {value : Stmt} {tokens follow : List Token}
    (derives : Derives (.statement value) (word :: tokens) follow) :
    ∃ arguments opening inner closing, value = .print arguments ∧
      tokens = opening :: (inner ++ [closing]) ∧ opening.kind = .symbol .openParen ∧
      Yields (.arguments arguments) inner ∧ closing.kind = .symbol .closeParen := by
  have differs : ∀ {keyword : Keyword}, word.kind = .keyword keyword → keyword = .printlineWord := by
    intro keyword isWord
    rw [isPrint] at isWord
    cases isWord
    rfl
  cases derives with
  | print _ opens yields closes => exact ⟨_, _, _, _, rfl, rfl, opens, yields, closes⟩
  | evaluate expression =>
      have known := Yields.kinds expression word List.mem_cons_self
      rw [isPrint] at known
      exact absurd known (by decide)
  | assign isWord | branch isWord | count isWord | loop isWord | leave isWord | next isWord
  | define isWord | noResult isWord | result isWord | table isWord | load isWord =>
      cases differs isWord

/-- A program that starts with the word for printing starts with a print statement. -/
theorem Derives.starts_with_print {word : Token} (isPrint : word.kind = .keyword .printlineWord)
    {values : Block} {tokens follow : List Token}
    (derives : Derives (.statements values) (word :: tokens) follow) :
    ∃ arguments others opening inner closing back, values = .print arguments :: others ∧
      tokens = opening :: (inner ++ closing :: back) ∧ opening.kind = .symbol .openParen ∧
      Yields (.arguments arguments) inner ∧ closing.kind = .symbol .closeParen ∧
      Derives (.statements others) back follow := by
  generalize whole : word :: tokens = taken at derives
  cases derives with
  | noStatement => cases whole
  | @statements value others front back _ first later =>
      cases front with
      | nil => exact absurd rfl first.ne_nil
      | cons head front =>
          rw [List.cons_append, List.cons.injEq] at whole
          obtain ⟨rfl, rfl⟩ := whole
          obtain ⟨arguments, opening, inner, closing, rfl, rfl, opens, yields, closes⟩ :=
            first.print_of_word isPrint
          refine ⟨arguments, others, opening, inner, closing, back, rfl, ?_, opens, yields, closes, later⟩
          rw [List.cons_append, List.append_assoc, List.singleton_append]

theorem Derives.statements_eq_nil_iff {values : Block} {tokens follow : List Token}
    (derives : Derives (.statements values) tokens follow) : values = [] ↔ tokens = [] := by
  cases derives with
  | noStatement => exact ⟨fun _ => rfl, fun _ => rfl⟩
  | statements first later =>
      constructor
      · intro nothing
        cases nothing
      · intro nothing
        exact absurd (List.append_eq_nil_iff.mp nothing).1 first.ne_nil

end Grammar

/-! ### Tokens of a printed text -/

namespace Lexing

def closeToken (line : Nat) : Token :=
  ⟨.symbol .closeParen, .text Symbol.closeParen.spelling, line⟩

theorem takeWhile_append_close {p : Char → Bool} (stops : p ')' = false) (rest : List Char) :
    (rest ++ [')']).takeWhile p = rest.takeWhile p ∧
      (rest ++ [')']).dropWhile p = rest.dropWhile p ++ [')'] := by
  induction rest with
  | nil => simp [stops]
  | cons c rest ih =>
      rw [List.cons_append]
      by_cases taken : p c = true
      · rw [List.takeWhile_cons_of_pos taken, List.takeWhile_cons_of_pos taken,
          List.dropWhile_cons_of_pos taken, List.dropWhile_cons_of_pos taken, ih.1]
        exact ⟨rfl, ih.2⟩
      · rw [List.takeWhile_cons_of_neg taken, List.takeWhile_cons_of_neg taken,
          List.dropWhile_cons_of_neg taken, List.dropWhile_cons_of_neg taken]
        exact ⟨rfl, rfl⟩

theorem lexeme_append_close (line : Nat) (c : Char) (rest : List Char) :
    lexeme line c (rest ++ [')']) =
      (lexeme line c rest).map fun found => { found with rest := found.rest ++ [')'] } := by
  -- A parenthesis goes on with no lexeme, and does not close a string.
  unfold lexeme
  split
  · cases closed : rest.dropWhile (· ≠ '"') with
    | nil =>
        have unclosed : (rest ++ [')']).dropWhile (· ≠ '"') = [] := by
          rw [List.dropWhile_append, closed]
          decide
        rw [unclosed]
        rfl
    | cons quote after =>
        obtain ⟨dropped, taken⟩ := quoted_append [')'] closed
        rw [dropped, taken]
        rfl
  · split
    · have stops : Text.isDigit ')' = false := rfl
      obtain ⟨taken, dropped⟩ := takeWhile_append_close stops rest
      dsimp only
      rw [taken, dropped]
      split
      · rfl
      · rfl
    · split
      · have stops : continuesWord ')' = false := rfl
        obtain ⟨taken, dropped⟩ := takeWhile_append_close stops rest
        rw [taken, dropped]
        rfl
      · cases rest with
        | nil =>
            have single : ¬(c = '=' ∧ ([] ++ [')']).head? = some '=') := fun both => by
              cases both.2
            have alone : ¬(c = '=' ∧ ([] : List Char).head? = some '=') := fun both => by
              cases both.2
            rw [if_neg single, if_neg alone]
            split
            · rfl
            · rfl
        | cons d rest =>
            rw [List.cons_append, List.head?_cons, List.head?_cons]
            split
            · rfl
            · split
              · rfl
              · rfl

theorem lexeme_sign {c : Char} {symbol : Symbol} (known : Symbol.ofCharacter? c = some symbol)
    (plain : c ≠ '"' ∧ c ≠ '=' ∧ Text.isDigit c = false ∧ startsWord c = false) (line : Nat)
    (rest : List Char) : lexeme line c rest = .ok ⟨.symbol symbol, .text symbol.spelling, rest⟩ := by
  obtain ⟨noQuote, noEqual, noDigit, noLetter⟩ := plain
  rw [lexeme, if_neg noQuote, noDigit, if_neg Bool.false_ne_true, noLetter,
    if_neg Bool.false_ne_true, if_neg fun both => noEqual both.1, known]

theorem lexeme_open (line : Nat) (rest : List Char) :
    lexeme line '(' rest = .ok ⟨.symbol .openParen, .text Symbol.openParen.spelling, rest⟩ :=
  lexeme_sign rfl ⟨by decide, by decide, rfl, rfl⟩ line rest

theorem lexeme_close (line : Nat) (rest : List Char) :
    lexeme line ')' rest = .ok ⟨.symbol .closeParen, .text Symbol.closeParen.spelling, rest⟩ :=
  lexeme_sign rfl ⟨by decide, by decide, rfl, rfl⟩ line rest

theorem scan_append_close (line : Nat) (characters : List Char) :
    scan line (characters ++ [')']) =
      (scan line characters).2.elim ((scan line characters).1 ++ [closeToken line], none)
        fun fault => ((scan line characters).1, some fault) := by
  fun_induction scan line characters with
  | case1 =>
      rw [List.nil_append, scan_cons_ok (by decide) (lexeme_close line []), scan]
      rfl
  | case2 c rest blank ih =>
      rw [List.cons_append, scan, if_pos blank]
      exact ih
  | case3 c rest visible fault failed =>
      have failedToo := lexeme_append_close line c rest
      rw [failed] at failedToo
      exact scan_cons_error visible failedToo
  | case4 c rest visible found success tokens fault scanned ih =>
      have successToo := lexeme_append_close line c rest
      rw [success] at successToo
      rw [List.cons_append, scan_cons_ok visible successToo]
      dsimp only
      rw [ih, scanned]
      cases fault with
      | none => rfl
      | some fault => rfl

theorem lexeme_printline (line : Nat) (rest : List Char) :
    lexeme line 'p' ("rintline".toList ++ '(' :: rest) =
      .ok ⟨.keyword .printlineWord, .text "printline", '(' :: rest⟩ := by
  have letters : ∀ c ∈ "rintline".toList, continuesWord c = true := by
    rw [← List.all_eq_true]
    rfl
  have stops : ¬continuesWord '(' = true := by decide
  rw [lexeme, if_neg (by decide), if_neg (by decide), if_pos (by decide),
    List.takeWhile_append_of_pos letters, List.dropWhile_append_of_pos letters,
    List.takeWhile_cons_of_neg stops, List.dropWhile_cons_of_neg stops, List.append_nil]
  have word : String.ofList ('p' :: "rintline".toList) = "printline" := by decide
  have isWord : wordKind "printline" = .keyword .printlineWord := by decide
  rw [word]
  dsimp only
  rw [isWord]

theorem scan_printline (line : Nat) (characters : List Char) :
    scan line ("printline(".toList ++ characters) =
      (⟨.keyword .printlineWord, .text "printline", line⟩ ::
        ⟨.symbol .openParen, .text Symbol.openParen.spelling, line⟩ :: (scan line characters).1,
        (scan line characters).2) := by
  have text : "printline(".toList ++ characters =
      'p' :: ("rintline".toList ++ '(' :: characters) := rfl
  rw [text, scan_cons_ok (by decide) (lexeme_printline line characters),
    scan_cons_ok (by decide) (lexeme_open line characters)]

end Lexing

/-- The parentheses that the text closes are opened by the text. -/
def ClosesOpened (text : String) : Prop :=
  ∀ tokens, tokenize text = .ok tokens → (parenDepth 0 tokens).isSome = true

theorem closesOpened_iff_toOption (text : String) :
    ClosesOpened text ↔
      ∀ tokens ∈ (tokenize text).toOption, (parenDepth 0 tokens).isSome = true := by
  rw [ClosesOpened]
  cases tokenize text with
  | ok tokens => simp [Except.toOption]
  | error fault => simp [Except.toOption]

instance : DecidablePred ClosesOpened :=
  fun text => decidable_of_iff _ (closesOpened_iff_toOption text).symm

def printedText (argument : String) : String :=
  "printline(" ++ argument ++ ")"

section

variable {parts : List String} (given : parts ≠ []) (areWords : ∀ part ∈ parts, Text.IsWord part)

include given areWords

theorem tokenize_unwords :
    tokenize (Text.unwords parts) = (Lexing.scan 1 (Text.unwords parts).toList).2.elim
      (.ok ((Lexing.scan 1 (Text.unwords parts).toList).1 ++ [Token.final 1])) .error := by
  have full : (Text.unwords parts).toList ≠ [] := by
    intro nothing
    have words := Text.words_unwords areWords
    rw [String.toList_eq_nil_iff.mp nothing] at words
    exact given words.symm
  exact tokenize_of_row (Text.lines_unbroken full (Text.unbroken_unwords areWords))
    (Lexing.indentation_eq_zero (Text.starts_unwords areWords))

omit given in
theorem tokenize_printedText :
    tokenize (printedText (Text.unwords parts)) =
      (Lexing.scan 1 (Text.unwords parts).toList).2.elim
        (.ok (⟨.keyword .printlineWord, .text "printline", 1⟩ ::
          ⟨.symbol .openParen, .text Symbol.openParen.spelling, 1⟩ ::
          ((Lexing.scan 1 (Text.unwords parts).toList).1 ++ [Lexing.closeToken 1])
            ++ [Token.final 1])) .error := by
  have characters : (printedText (Text.unwords parts)).toList =
      "printline(".toList ++ ((Text.unwords parts).toList ++ [')']) := by
    rw [printedText, String.toList_append, String.toList_append, List.append_assoc]
    rfl
  have unbroken : ∀ c ∈ (printedText (Text.unwords parts)).toList, Text.isLineBreak c = false := by
    have front : ∀ c ∈ "printline(".toList, Text.isLineBreak c = false := by
      simpa using (show "printline(".toList.all (!Text.isLineBreak ·) = true by decide)
    rw [characters, List.forall_mem_append, List.forall_mem_append]
    exact ⟨front, Text.unbroken_unwords areWords, List.forall_mem_singleton.mpr (by decide)⟩
  have rows : Text.lines (printedText (Text.unwords parts)).toList =
      [(printedText (Text.unwords parts)).toList] :=
    Text.lines_unbroken (by simp [characters]) unbroken
  have margin : Lexing.indentation (printedText (Text.unwords parts)).toList = 0 := by
    rw [characters]
    exact Lexing.indentation_eq_zero (by rintro c ⟨rfl⟩; decide)
  rw [tokenize_of_row rows margin, characters, Lexing.scan_printline, Lexing.scan_append_close]
  cases (Lexing.scan 1 (Text.unwords parts).toList).2 with
  | some fault => rfl
  | none => rfl

/-- The program of the print statement with words in it. Behind the statement nothing follows exactly if
the words close no parenthesis but their own, and then they are the arguments. -/
theorem compile_printedText [Limits] {program : Program}
    (compiled : compile (printedText (Text.unwords parts)) = .ok program) :
    ∃ arguments others, program.statements = .print arguments :: others ∧
      (others = [] ↔ ClosesOpened (Text.unwords parts)) ∧
      (others = [] → ∃ taken, tokenize (Text.unwords parts) = .ok (taken ++ [Token.final 1]) ∧
        Grammar.Yields (.arguments arguments) taken) := by
  obtain ⟨tokens, lexed, parsed⟩ := compile_eq_ok_iff.mp compiled
  have alone := tokenize_unwords given areWords
  have printed := tokenize_printedText areWords
  rw [lexed] at printed
  -- a fault in the words is one in the statement, so the words have tokens
  cases stopped : (Lexing.scan 1 (Text.unwords parts).toList).2 with
  | some fault =>
      rw [stopped] at printed
      cases printed
  | none =>
      rw [stopped] at printed alone
      generalize (Lexing.scan 1 (Text.unwords parts).toList).1 = taken at printed alone
      obtain ⟨final, split, _⟩ := tokenize_ends lexed
      have before := List.append_inj_left' (split.symm.trans (Except.ok.inj printed)) rfl
      obtain ⟨follow, derives⟩ := derives_of_parsed parsed
      rw [before] at derives
      obtain ⟨arguments, others, opening, inner, closing, back, same, whole, _, yields, closes, later⟩ :=
        derives.starts_with_print rfl
      rw [List.cons.injEq] at whole
      have ended := later.statements_eq_nil_iff
      have closed : ClosesOpened (Text.unwords parts) ↔ (parenDepth 0 taken).isSome = true := by
        have depth : parenDepth 0 (taken ++ [Token.final 1]) = parenDepth 0 taken := by
          rw [parenDepth_append]
          cases parenDepth 0 taken with
          | none => rfl
          | some depth => rfl
        constructor
        · intro closesOpened
          rw [← depth]
          exact closesOpened _ alone
        · intro opened tokens lexedAlone
          cases alone.symm.trans lexedAlone
          rwa [depth]
      refine ⟨arguments, others, same, ?_⟩
      rw [closed, ended]
      rcases List.eq_nil_or_concat back with rfl | ⟨most, last, rfl⟩
      · -- The arguments end with the last parenthesis, which does not come from the words.
        obtain rfl : taken = inner := List.append_inj_left' whole.2 rfl
        refine ⟨⟨fun _ => ?_, fun _ => rfl⟩, fun _ => ⟨taken, alone, yields⟩⟩
        rw [yields.balanced]
        rfl
      · -- The arguments end before the last parenthesis, with one of the words.
        rw [List.concat_eq_append, ← List.cons_append, ← List.append_assoc] at whole
        obtain rfl : taken = inner ++ closing :: most := List.append_inj_left' whole.2 rfl
        have overclosed : parenDepth 0 (inner ++ closing :: most) = none := by
          rw [parenDepth_append, yields.balanced, Option.bind_some, parenDepth_zero_close closes]
        rw [overclosed]
        simp

end

/-! ### Evaluating a text -/

/-- What follows a program that does not finish is not run. -/
theorem Machine.runProgram_append_stopped [Limits] {machine : Machine} {front : Block} {stop : Stop}
    (stopped : (machine.runProgram ⟨front⟩).1 = some stop) (back : Block) :
    machine.runProgram ⟨front ++ back⟩ = machine.runProgram ⟨front⟩ := by
  have split : Run.programWithin Run.roundLimit Run.depthLimit ⟨front ++ back⟩ =
      Run.programWithin Run.roundLimit Run.depthLimit ⟨front⟩ >>= fun _ =>
        Run.programWithin Run.roundLimit Run.depthLimit ⟨back⟩ := List.forM_append
  rw [runProgram, runProgramWithin] at stopped
  rw [runProgram, runProgramWithin, split, runProgram, runProgramWithin]
  cases ran : (Run.programWithin Run.roundLimit Run.depthLimit ⟨front⟩).run.run machine with
  | mk ended left =>
      rw [ran] at stopped
      cases ended with
      | ok _ => cases stopped
      | error stop => rw [Run.run_bind_error ran]

/-- A text that has no program is not run, and what is said about it can be said. -/
theorem exists_notice_of_compile_error [Limits] {source : String} {failure : Failure}
    (refused : compile source = .error failure) : ∃ notice, failure.notice = .ok notice := by
  rcases compile_eq_error refused with ⟨fault, _, rfl⟩ | ⟨_, found, _, _, rfl⟩
  · exact ⟨_, rfl⟩
  · exact ⟨_, rfl⟩

namespace Dialog

variable [Limits]

theorem command_eval (text : String) :
    command ("eval " ++ text) = perform .eval (Text.words text) :=
  @command_append _ "eval" (by decide) .eval rfl text

theorem scopes_runEntry (code : String) (terminal : Terminal) :
    ((runEntry code).run.run terminal).2.machine.scopes = (terminal.machine.runSource code).2.scopes := by
  cases ran : terminal.machine.runSource code with
  | mk failure machine =>
      rw [run_runEntry ran]
      rcases conclude_cases failure with ⟨escape, escapes⟩ | ⟨text, writes⟩
      · rw [escapes]
      · rw [writes]
        rfl

/-- A text with words is run as the argument of a print statement. -/
theorem run_eval {terminal : Terminal} (idle : terminal.pending = "") {text : String}
    (given : Text.words text ≠ []) :
    (command ("eval " ++ text)).run.run terminal =
      (runEntry (printedText (Text.unwords (Text.words text)))).run.run terminal.closed := by
  have closes : Closes (printedText (Text.unwords (Text.words text))) := by
    have last : (printedText (Text.unwords (Text.words text))).toList.getLast? = some ')' := by
      rw [printedText, String.toList_append]
      exact List.getLast?_concat
    refine ⟨by simp [printedText], ?_⟩
    rw [last]
    decide
  have performed : command ("eval " ++ text) = feed (printedText (Text.unwords (Text.words text))) := by
    rw [command_eval]
    exact if_neg (by simpa using given)
  rw [performed, run_feed_closing closes.1 closes.2, idle, String.empty_append]

theorem run_runEntry_refused {source : String} {failure : Failure} {notice : Content}
    (refused : compile source = .error failure) (told : failure.notice = .ok notice)
    (terminal : Terminal) :
    (runEntry source).run.run terminal =
      (.ok (), { terminal.withConsole (·.write notice) with
        history := terminal.history.push source }) := by
  have ran : terminal.machine.runSource source = (some failure, terminal.machine) := by
    rw [Machine.runSource, refused]
  rw [run_runEntry ran, run_conclude, Failure.ending, told]
  rfl

end Dialog

namespace Terminal

/-- Where nothing is kept, a text is evaluated as what stands in the parentheses of a print statement. A
text that makes no program of that is not run, which is said. Otherwise the program is the print
statement and the statements that follow it; there are none exactly if the text closes no parenthesis
but its own, and then the text is made of expressions. No variable changes if the text closes none but
its own, or if the printing fails. Otherwise the statements are run on what the printing leaves. -/
theorem eval_runs_printed_text [Limits] (terminal : Terminal) (idle : terminal.pending = "")
    (text : String) :
    let argument := Text.unwords (Text.words text)
    let result := (Dialog.command ("eval " ++ text)).run.run terminal
    (Text.words text = [] → result = (.ok (), terminal.said "Usage: :eval <expression>")) ∧
    (Text.words text ≠ [] →
      (ClosesOpened argument → result.2.machine.scopes = terminal.machine.scopes) ∧
      (∀ failure, compile (printedText argument) = .error failure →
        ∃ notice, failure.notice = .ok notice ∧
          result = (.ok (), { terminal.closed.withConsole (·.write notice) with
            history := terminal.history.push (printedText argument) })) ∧
      ∀ program, compile (printedText argument) = .ok program → ∃ arguments others,
        program.statements = .print arguments :: others ∧
        (others = [] ↔ ClosesOpened argument) ∧
        (others = [] → ∃ taken, tokenize argument = .ok (taken ++ [Token.final 1]) ∧
          Grammar.Yields (.arguments arguments) taken) ∧
        let printed := terminal.machine.runProgram ⟨[.print arguments]⟩
        (∀ stop, printed.1 = some stop → result.2.machine.scopes = terminal.machine.scopes) ∧
        (printed.1 = none →
          result.2.machine.scopes = (printed.2.runProgram ⟨others⟩).2.scopes)) := by
  intro argument result
  refine ⟨?_, ?_⟩
  · intro nothing
    change (Dialog.command ("eval " ++ text)).run.run terminal = _
    rw [Dialog.command_eval, nothing]
    rfl
  intro given
  have areWords := Text.isWord_of_mem_words text
  have ran : result = (Dialog.runEntry (printedText argument)).run.run terminal.closed :=
    Dialog.run_eval idle given
  have scopes : result.2.machine.scopes =
      (terminal.machine.runSource (printedText argument)).2.scopes := by
    have entry := Dialog.scopes_runEntry (printedText argument) terminal.closed
    rw [← ran, show terminal.closed.machine = terminal.machine from rfl] at entry
    exact entry
  have scopesOf : ∀ {program}, compile (printedText argument) = .ok program →
      result.2.machine.scopes = (terminal.machine.runProgram program).2.scopes := by
    intro program compiled
    rw [scopes, Machine.runSource, compiled]
  refine ⟨?_, ?_, ?_⟩
  · intro closesOpened
    cases compiled : compile (printedText argument) with
    | error failure => rw [scopes, Machine.runSource, compiled]
    | ok program =>
        obtain ⟨arguments, others, same, alone, _⟩ := compile_printedText given areWords compiled
        obtain ⟨statements⟩ := program
        cases same
        rw [scopesOf compiled, alone.mpr closesOpened]
        exact Machine.scopes_runProgram_print arguments terminal.machine
  · intro failure refused
    obtain ⟨notice, told⟩ := exists_notice_of_compile_error refused
    exact ⟨notice, told, ran.trans (Dialog.run_runEntry_refused refused told terminal.closed)⟩
  · intro program compiled
    obtain ⟨arguments, others, same, alone, expressions⟩ := compile_printedText given areWords compiled
    obtain ⟨statements⟩ := program
    cases same
    refine ⟨arguments, others, rfl, alone, expressions, ?_, ?_⟩
    · intro stop stopped
      rw [scopesOf compiled, ← List.singleton_append, Machine.runProgram_append_stopped stopped]
      exact Machine.scopes_runProgram_print arguments terminal.machine
    · intro finished
      rw [scopesOf compiled, ← List.singleton_append]
      exact congrArg (·.2.scopes) (Machine.runProgramWithin_append _ _ _ _ others finished)

/-- The text has parentheses of its own, and calls a function that binds a name of its own. -/
theorem eval_runs_printed_text_call :
    let terminal := ((Dialog.feed "func f(n):\n    local x = n\n    return x * 2\n").run.run bare).2
    let text := "(f(3) + 1) *  2"
    let result := (Dialog.command ("eval " ++ text)).run.run terminal
    terminal.pending = "" ∧ Text.words text ≠ [] ∧
      ClosesOpened (Text.unwords (Text.words text)) ∧
      result.2.machine.console.output = .plain "14 \n" ∧
      result.2.machine.scopes = terminal.machine.scopes := by
  intro terminal text result
  have evaluated : terminal.pending = "" ∧ Text.words text ≠ [] ∧
      ClosesOpened (Text.unwords (Text.words text)) ∧
      result.2.machine.console.output = .plain "14 \n" := by decide +kernel
  obtain ⟨idle, given, closes, printed⟩ := evaluated
  exact ⟨idle, given, closes, printed,
    ((eval_runs_printed_text terminal idle text).2 given).1 closes⟩

/-- The text closes the parenthesis in front of it and binds a variable. -/
theorem eval_binds_variable :
    let text := "1) local x = 5 printline(2"
    let left := ((Dialog.command ("eval " ++ text)).run.run bare).2
    bare.pending = "" ∧ ¬ClosesOpened (Text.unwords (Text.words text)) ∧
      Entries.get? "x" bare.machine.globals = none ∧
      (Entries.get? "x" left.machine.globals).bind Value.integer? = some 5 ∧
      left.machine.console.output = .plain "1 \n2 \n" := by
  decide +kernel

end Terminal

end IndentScript
