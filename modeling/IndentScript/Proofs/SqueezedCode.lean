import IndentScript.Proofs.CommandTexts
import IndentScript.Proofs.Concatenation
import IndentScript.Proofs.PendingLines

/-!
Code in command lines. What is executed is the code with one space in the place of every row of blanks.
Between its tokens that has no effect, but it has one inside a string, and the code is recorded as it
was executed. So executing code is feeding it exactly if the code has no blanks but single spaces.
-/

namespace IndentScript

namespace Text

theorem squeezeFrom_append_visible (inGap : Bool) (front : List Char) {c : Char}
    (visible : isBlank c = false) (rest : List Char) :
    squeezeFrom inGap (front ++ c :: rest) = squeezeFrom inGap front ++ c :: squeezeFrom false rest := by
  induction front generalizing inGap with
  | nil => exact squeezeFrom_visible visible inGap rest
  | cons d front ih =>
      rw [List.cons_append]
      cases blank : isBlank d with
      | false =>
          rw [squeezeFrom_visible blank, squeezeFrom_visible blank, ih, List.cons_append]
      | true =>
          rw [squeezeFrom_blank blank, squeezeFrom_blank blank, ih]
          cases inGap with
          | true => rfl
          | false => rfl

theorem mem_squeezeFrom {inGap : Bool} {characters : List Char} {c : Char}
    (member : c ∈ squeezeFrom inGap characters) : c = ' ' ∨ c ∈ characters := by
  fun_induction squeezeFrom inGap characters with
  | case1 => cases member
  | case2 d rest blank ih => exact (ih member).imp_right (List.mem_cons_of_mem d)
  | case3 inGap d rest blank gapless ih =>
      rcases List.mem_cons.mp member with rfl | later
      · exact .inl rfl
      · exact (ih later).imp_right (List.mem_cons_of_mem d)
  | case4 inGap d rest visible ih =>
      rcases List.mem_cons.mp member with rfl | later
      · exact .inr List.mem_cons_self
      · exact (ih later).imp_right (List.mem_cons_of_mem d)

section

variable {p : Char → Bool} (sighted : ∀ c, p c = true → isBlank c = false)

include sighted

/-- A row of characters that can be seen is not changed, and squeezing goes on behind it. -/
theorem span_squeezeFrom (characters : List Char) :
    (squeezeFrom false characters).takeWhile p = characters.takeWhile p ∧
      (squeezeFrom false characters).dropWhile p = squeezeFrom false (characters.dropWhile p) := by
  have noSpace : ¬p ' ' = true := by
    intro seen
    have visible := sighted ' ' seen
    rw [isBlank_space] at visible
    cases visible
  induction characters with
  | nil => exact ⟨rfl, rfl⟩
  | cons c rest ih =>
      by_cases seen : p c = true
      · rw [squeezeFrom_visible (sighted c seen), List.takeWhile_cons_of_pos seen,
          List.takeWhile_cons_of_pos seen, List.dropWhile_cons_of_pos seen,
          List.dropWhile_cons_of_pos seen, ih.1]
        exact ⟨rfl, ih.2⟩
      · rw [List.takeWhile_cons_of_neg seen, List.dropWhile_cons_of_neg seen]
        cases blank : isBlank c with
        | false =>
            rw [squeezeFrom_visible blank, List.takeWhile_cons_of_neg seen,
              List.dropWhile_cons_of_neg seen]
            exact ⟨rfl, rfl⟩
        | true =>
            rw [squeezeFrom_blank blank, if_neg Bool.false_ne_true, List.takeWhile_cons_of_neg noSpace,
              List.dropWhile_cons_of_neg noSpace]
            exact ⟨rfl, rfl⟩

end

end Text

/-! ### Tokens of squeezed code -/

/-- What a token carries when its line was squeezed: only strings hold blanks. -/
def Payload.squeezed : Kind → Payload → Payload
  | .string, .text content => .text (Text.squeezed content)
  | _, payload => payload

def Token.squeezed (token : Token) : Token :=
  { token with payload := token.payload.squeezed token.kind }

namespace Lexing

def Lexeme.squeezed (found : Lexeme) : Lexeme :=
  ⟨found.kind, found.payload.squeezed found.kind, Text.squeezeFrom false found.rest⟩

theorem unclosed_squeezeFrom {rest : List Char} (unclosed : rest.dropWhile (· ≠ '"') = []) :
    (Text.squeezeFrom false rest).dropWhile (· ≠ '"') = [] := by
  rw [List.dropWhile_eq_nil_iff] at unclosed ⊢
  intro c member
  rcases Text.mem_squeezeFrom member with rfl | inRest
  · decide
  · exact unclosed c inRest

/-- A string is squeezed up to its closing quote, which is no blank. -/
theorem quoted_squeezeFrom {rest after : List Char} {quote : Char}
    (closed : rest.dropWhile (· ≠ '"') = quote :: after) :
    (Text.squeezeFrom false rest).dropWhile (· ≠ '"') = quote :: Text.squeezeFrom false after ∧
      (Text.squeezeFrom false rest).takeWhile (· ≠ '"') =
        Text.squeezeFrom false (rest.takeWhile (· ≠ '"')) := by
  have isQuote : quote = '"' := by
    have stopped := List.head?_dropWhile_not (· ≠ '"') rest
    rw [closed] at stopped
    simpa using stopped
  have visible : Text.isBlank quote = false := by
    rw [isQuote]
    decide
  have whole : rest = rest.takeWhile (· ≠ '"') ++ quote :: after := by
    rw [← closed, List.takeWhile_append_dropWhile]
  have inside : ∀ c ∈ Text.squeezeFrom false (rest.takeWhile (· ≠ '"')), decide (c ≠ '"') = true := by
    intro c member
    rcases Text.mem_squeezeFrom member with rfl | taken
    · decide
    · have outside := List.mem_takeWhile_imp taken
      exact outside
  have squeezed := Text.squeezeFrom_append_visible false (rest.takeWhile (· ≠ '"')) visible after
  rw [← whole] at squeezed
  rw [squeezed, List.dropWhile_append_of_pos inside, List.takeWhile_append_of_pos inside, isQuote]
  simp

theorem squeezed_wordKind (word : String) (payload : Payload) :
    payload.squeezed (wordKind word) = payload := by
  rcases wordKind_cases word with ⟨keyword, _, same⟩ | ⟨_, same⟩
  · rw [same, Payload.squeezed]
    simp
  · rw [same, Payload.squeezed]
    simp

theorem head?_squeezeFrom_equals (rest : List Char) :
    (Text.squeezeFrom false rest).head? = some '=' ↔ rest.head? = some '=' := by
  cases rest with
  | nil => rfl
  | cons d rest =>
      cases blank : Text.isBlank d with
      | false => rw [Text.squeezeFrom_visible blank, List.head?_cons, List.head?_cons]
      | true =>
          have other : d ≠ '=' := by
            rintro rfl
            revert blank
            decide
          rw [Text.squeezeFrom_blank blank, if_neg Bool.false_ne_true]
          simp [other]

theorem lexeme_squeezeFrom (line : Nat) (c : Char) (rest : List Char) :
    lexeme line c (Text.squeezeFrom false rest) = (lexeme line c rest).map Lexeme.squeezed := by
  -- Only a string takes blanks in; whatever else a lexeme takes stands before the next blank.
  unfold lexeme
  split
  · cases closed : rest.dropWhile (· ≠ '"') with
    | nil =>
        rw [unclosed_squeezeFrom closed]
        rfl
    | cons quote after =>
        obtain ⟨dropped, taken⟩ := quoted_squeezeFrom closed
        rw [dropped, taken]
        simp [Except.map, Lexeme.squeezed, Payload.squeezed, Text.squeezed]
  · split
    · have sighted : ∀ d, Text.isDigit d = true → Text.isBlank d = false :=
        fun _ => Text.isBlank_eq_false_of_isDigit
      obtain ⟨taken, dropped⟩ := Text.span_squeezeFrom sighted rest
      dsimp only
      rw [taken, dropped]
      split
      · rfl
      · rfl
    · split
      · have sighted : ∀ d, continuesWord d = true → Text.isBlank d = false :=
          fun _ => isBlank_eq_false_of_continuesWord
        obtain ⟨taken, dropped⟩ := Text.span_squeezeFrom sighted rest
        dsimp only
        rw [taken, dropped, Except.map, Lexeme.squeezed, squeezed_wordKind]
      · simp only [head?_squeezeFrom_equals]
        split
        · rename_i double
          obtain ⟨others, rfl⟩ := List.head?_eq_some_iff.mp double.2
          rw [Text.squeezeFrom_visible (by decide)]
          rfl
        · split
          · rfl
          · rfl

theorem scan_cons_ok {line : Nat} {c : Char} {rest : List Char} {found : Lexeme}
    (visible : ¬Text.isBlank c = true) (success : lexeme line c rest = .ok found) :
    scan line (c :: rest) =
      (⟨found.kind, found.payload, line⟩ :: (scan line found.rest).1, (scan line found.rest).2) := by
  rw [scan, if_neg visible]
  split
  · rename_i fault failed
    rw [success] at failed
    cases failed
  · rename_i other successToo
    rw [success] at successToo
    cases successToo
    rfl

theorem scan_cons_error {line : Nat} {c : Char} {rest : List Char} {fault : LexicalFault}
    (visible : ¬Text.isBlank c = true) (failed : lexeme line c rest = .error fault) :
    scan line (c :: rest) = ([], some fault) := by
  rw [scan, if_neg visible]
  split
  · rename_i other failedToo
    rw [failed] at failedToo
    cases failedToo
    rfl
  · rename_i found success
    rw [failed] at success
    cases success

/-- Squeezing a line squeezes the strings in it, and has no other effect on its tokens. -/
theorem scan_squeezeFrom (line : Nat) (inGap : Bool) (characters : List Char) :
    scan line (Text.squeezeFrom inGap characters) =
      ((scan line characters).1.map Token.squeezed, (scan line characters).2) := by
  fun_induction scan line characters generalizing inGap with
  | case1 => rw [Text.squeezeFrom, scan, List.map_nil]
  | case2 c rest blank ih =>
      rw [Text.squeezeFrom_blank blank]
      cases inGap with
      | true => exact ih true
      | false =>
          rw [if_neg Bool.false_ne_true, scan, if_pos Text.isBlank_space]
          exact ih true
  | case3 c rest visible fault failed =>
      have failedToo := lexeme_squeezeFrom line c rest
      rw [failed] at failedToo
      rw [Text.squeezeFrom_visible (by simpa using visible), scan_cons_error visible failedToo]
      rfl
  | case4 c rest visible found success tokens fault scanned ih =>
      have successToo := lexeme_squeezeFrom line c rest
      rw [success] at successToo
      have later := ih false
      rw [scanned] at later
      rw [Text.squeezeFrom_visible (by simpa using visible), scan_cons_ok visible successToo,
        Lexeme.squeezed]
      dsimp only
      rw [later]
      rfl

end Lexing

/-! ### Code of one line -/

namespace Text

structure IsOneLine (code : String) : Prop extends IsTrimmed code where
  unbroken : ∀ c ∈ code.toList, isLineBreak c = false

theorem isOneLine_iff_all (code : String) :
    IsOneLine code ↔ IsTrimmed code ∧ code.toList.all (!isLineBreak ·) = true := by
  simp only [List.all_eq_true, Bool.not_eq_true']
  constructor
  · intro oneLine
    exact ⟨oneLine.toIsTrimmed, oneLine.unbroken⟩
  · intro conditions
    exact ⟨conditions.1, conditions.2⟩

instance : DecidablePred IsOneLine :=
  fun code => decidable_of_iff _ (isOneLine_iff_all code).symm

theorem IsTrimmed.exists_visible {code : String} (trimmed : IsTrimmed code) :
    ∃ c rest, code.toList = c :: rest ∧ isBlank c = false := by
  cases characters : code.toList with
  | nil => exact absurd (String.toList_eq_nil_iff.mp characters) trimmed.nonempty
  | cons c rest => exact ⟨c, rest, rfl, trimmed.starts c (by rw [characters]; rfl)⟩

/-- Squeezed code begins and ends with the same characters as the code. -/
theorem IsTrimmed.squeezed_ends {code : String} (trimmed : IsTrimmed code) :
    (squeezed code).toList.head? = code.toList.head? ∧
      (squeezed code).toList.getLast? = code.toList.getLast? := by
  rw [squeezed, String.toList_ofList]
  constructor
  · obtain ⟨c, rest, characters, visible⟩ := trimmed.exists_visible
    rw [characters, squeezeFrom_visible visible]
    rfl
  · obtain ⟨last, isLast, visible⟩ := trimmed.ends
    obtain ⟨front, characters⟩ := List.getLast?_eq_some_iff.mp isLast
    rw [characters, squeezeFrom_append_visible false front visible, squeezeFrom,
      List.getLast?_concat, List.getLast?_concat]

theorem IsTrimmed.squeezed_ne_empty {code : String} (trimmed : IsTrimmed code) : squeezed code ≠ "" := by
  obtain ⟨c, rest, characters, _⟩ := trimmed.exists_visible
  intro empty
  have starts := trimmed.squeezed_ends.1
  rw [empty, characters] at starts
  cases starts

theorem IsTrimmed.lines_squeezed {code : String} (trimmed : IsTrimmed code) :
    lines (squeezed code).toList = [squeezeFrom false code.toList] := by
  have full : (squeezed code).toList ≠ [] := by simpa using trimmed.squeezed_ne_empty
  rw [squeezed, String.toList_ofList] at full ⊢
  exact lines_unbroken full (unbroken_squeezeFrom false code.toList)

theorem IsOneLine.lines_eq {code : String} (oneLine : IsOneLine code) :
    lines code.toList = [code.toList] :=
  lines_unbroken (by simpa using oneLine.nonempty) oneLine.unbroken

end Text

namespace Lexing

theorem indentation_squeezed {code : String} (trimmed : Text.IsTrimmed code) :
    indentation (Text.squeezeFrom false code.toList) = 0 := by
  apply indentation_eq_zero
  have starts := trimmed.squeezed_ends.1
  rw [Text.squeezed, String.toList_ofList] at starts
  rw [starts]
  exact trimmed.starts

end Lexing

namespace Token

def IsEven (token : Token) : Prop :=
  token.kind = .string → Text.EvenlySpaced token.payload.asText.toList

instance : DecidablePred IsEven :=
  fun token => inferInstanceAs (Decidable (token.kind = .string → _))

theorem IsEven.squeezed_eq {token : Token} (even : token.IsEven) : token.squeezed = token := by
  obtain ⟨kind, payload, line⟩ := token
  rw [squeezed]
  fun_cases Payload.squeezed kind payload with
  | case1 content => rw [(Text.squeezed_eq_self_iff content).mpr (even rfl)]
  | case2 => rfl

theorem map_squeezed_eq_self {tokens : List Token} (even : ∀ token ∈ tokens, token.IsEven) :
    tokens.map squeezed = tokens := by
  conv_rhs => rw [← List.map_id tokens]
  exact List.map_congr_left fun token member => (even token member).squeezed_eq

theorem isEven_of_alikeLists {tokens others : List Token} (alike : AlikeLists tokens others)
    (even : ∀ token ∈ tokens, token.IsEven) : ∀ other ∈ others, other.IsEven := by
  induction alike with
  | nil => exact even
  | cons same _ ih =>
      obtain ⟨evenFirst, evenRest⟩ := List.forall_mem_cons.mp even
      refine List.forall_mem_cons.mpr ⟨?_, ih evenRest⟩
      rwa [IsEven, ← same.1, ← same.2]

end Token

/-- The strings in the code hold no blanks but single spaces. -/
def StringsEven (code : String) : Prop :=
  ∀ tokens, tokenize code = .ok tokens → ∀ token ∈ tokens, token.IsEven

theorem stringsEven_iff_toOption (code : String) :
    StringsEven code ↔ ∀ tokens ∈ (tokenize code).toOption, ∀ token ∈ tokens, token.IsEven := by
  rw [StringsEven]
  cases tokenize code with
  | ok tokens => simp [Except.toOption]
  | error fault => simp [Except.toOption]

instance : DecidablePred StringsEven :=
  fun code => decidable_of_iff _ (stringsEven_iff_toOption code).symm

/-- The tokens of a source text that is one line at the margin. -/
theorem tokenize_of_row {source : String} {row : List Char}
    (rows : Text.lines source.toList = [row]) (margin : Lexing.indentation row = 0) :
    tokenize source =
      (Lexing.scan 1 row).2.elim (.ok ((Lexing.scan 1 row).1 ++ [Token.final 1])) .error := by
  rw [tokenize, Lexer.tokenize, Lexer.new]
  dsimp only
  rw [rows, Lexing.cut, margin, List.drop_zero]
  cases Lexing.scan 1 row with
  | mk tokens fault =>
      cases fault with
      | some fault => rfl
      | none => rfl

/-- Squeezing code of one line squeezes the strings in it, and has no other effect on the tokens. -/
theorem tokenize_squeezed {code : String} (oneLine : Text.IsOneLine code) :
    tokenize (Text.squeezed code) = (tokenize code).map (List.map Token.squeezed) := by
  rw [tokenize_of_row oneLine.lines_eq (Lexing.indentation_eq_zero oneLine.starts),
    tokenize_of_row oneLine.lines_squeezed (Lexing.indentation_squeezed oneLine.toIsTrimmed),
    Lexing.scan_squeezeFrom]
  cases Lexing.scan 1 code.toList with
  | mk tokens fault =>
      cases fault with
      | some fault => rfl
      | none =>
          change Except.ok (tokens.map Token.squeezed ++ [Token.final 1]) =
            Except.ok ((tokens ++ [Token.final 1]).map Token.squeezed)
          rw [List.map_append]
          rfl

/-- Behind whole lines, code whose strings are evenly spaced has the same tokens when it is squeezed. -/
theorem tokenize_append_squeezed {front code : String}
    (whole : front.toList = [] ∨ ∃ most, front.toList = most ++ ['\n'])
    (oneLine : Text.IsOneLine code) (even : StringsEven code) :
    tokenize (front ++ Text.squeezed code) = tokenize (front ++ code) := by
  have margin := Lexing.indentation_eq_zero oneLine.starts
  have squeezedMargin := Lexing.indentation_squeezed oneLine.toIsTrimmed
  have alone := tokenize_of_row oneLine.lines_eq margin
  rw [tokenize, tokenize, Lexer.tokenize, Lexer.tokenize, Lexer.new, Lexer.new]
  dsimp only
  rw [String.toList_append, String.toList_append, Text.lines_append whole, Text.lines_append whole,
    oneLine.lines_eq, oneLine.lines_squeezed, Lexing.cut_append, Lexing.cut_append, Lexing.Outcome.resume,
    Lexing.Outcome.resume]
  generalize Lexing.reach 1 1 [0] (Text.lines front.toList) = reached
  generalize 1 + (Text.lines front.toList).length = next
  cases reached.fault with
  | some fault => rfl
  | none =>
      dsimp only
      rw [Lexing.cut, Lexing.cut, margin, squeezedMargin, List.drop_zero, List.drop_zero,
        Lexing.scan_squeezeFrom]
      dsimp only
      cases stopped : (Lexing.scan next code.toList).2 with
      | some fault => rfl
      | none =>
          have noFault := (Lexing.scan_alike stopped 1).1
          rw [noFault] at alone
          have evenAlone : ∀ token ∈ (Lexing.scan 1 code.toList).1, token.IsEven :=
            fun token member => even _ alone token (List.mem_append_left _ member)
          have alike := (Lexing.scan_alike noFault next).2
          rw [Token.map_squeezed_eq_self (Token.isEven_of_alikeLists alike evenAlone)]

/-! ### Executing code -/

namespace Dialog

variable [Limits]

/-- Entries with the same program differ in what is recorded only. -/
theorem runEntry_congr_history {code other : String} (same : compile code = compile other)
    (terminal : Terminal) :
    let one := (runEntry code).run.run terminal
    let two := (runEntry other).run.run terminal
    one.1 = two.1 ∧ one.2 = { two.2 with history := one.2.history } := by
  have sameRun : terminal.machine.runSource code = terminal.machine.runSource other := by
    rw [Machine.runSource, Machine.runSource, same]
  cases ran : terminal.machine.runSource other with
  | mk failure machine =>
      rw [run_runEntry ran, run_runEntry (sameRun.trans ran)]
      rcases conclude_cases failure with ⟨escape, escapes⟩ | ⟨text, writes⟩
      · rw [escapes, escapes]
        exact ⟨rfl, rfl⟩
      · rw [writes, writes]
        exact ⟨rfl, rfl⟩

/-- An entry that returns is recorded. -/
theorem history_of_runEntry {code : String} {terminal left : Terminal}
    (returned : (runEntry code).run.run terminal = (.ok (), left)) :
    left.history = terminal.history.push code := by
  cases ran : terminal.machine.runSource code with
  | mk failure machine =>
      rw [run_runEntry ran] at returned
      rcases conclude_cases failure with ⟨escape, escapes⟩ | ⟨text, writes⟩
      · rw [escapes] at returned
        cases returned
      · rw [writes] at returned
        cases returned
        rfl

/-- A text leaves itself behind, in the open entry or in the history. -/
theorem eq_of_run_feed {code other : String} (visible : code ≠ "") (otherVisible : other ≠ "")
    (sameLast : other.toList.getLast? = code.toList.getLast?) {terminal left : Terminal}
    (fed : (feed code).run.run terminal = (.ok (), left))
    (fedOther : (feed other).run.run terminal = (.ok (), left)) : other = code := by
  rcases run_feed_cases code terminal with ⟨empty, _⟩ | ⟨front, rfl, kept⟩ | ⟨closes, ran⟩
  · exact absurd empty visible
  · rcases run_feed_cases other terminal with ⟨empty, _⟩ | ⟨otherFront, rfl, otherKept⟩ | ⟨closes, _⟩
    · exact absurd empty otherVisible
    · have same : terminal.opened otherFront = terminal.opened front := by
        have both := (otherKept.symm.trans fedOther).trans (fed.symm.trans kept)
        exact congrArg Prod.snd both
      have pending := congrArg Terminal.pending same
      simp only [Terminal.opened, String.append_left_inj, String.append_right_inj] at pending
      rw [pending]
    · exact absurd (sameLast.trans (by simp)) closes.2
  · have otherCloses : other.toList.getLast? ≠ some '\\' := by
      rw [sameLast]
      exact closes.2
    rw [ran] at fed
    rw [run_feed_closing otherVisible otherCloses] at fedOther
    have recorded := (history_of_runEntry fedOther).symm.trans (history_of_runEntry fed)
    exact (String.append_right_inj _).mp (Array.push_inj_right.mp recorded)

end Dialog

theorem Text.ended_whole (lines : List String) :
    (ended lines).toList = [] ∨ ∃ most, (ended lines).toList = most ++ ['\n'] := by
  rcases List.eq_nil_or_concat lines with rfl | ⟨front, last, rfl⟩
  · exact .inl rfl
  · rw [List.concat_eq_append, ended_append_single]
    exact .inr ⟨(ended front ++ last).toList, by rw [String.toList_append]; rfl⟩

namespace Terminal

/-- Whatever is kept and held by a terminal, executing code that has no blanks at its ends is feeding
the squeezed code. That is feeding the code if its blanks are single spaces, and only then if the code
returns, since it is kept or recorded. In code of one line the strings are squeezed and nothing else;
so where an entry is closed by such code, and the strings in it are as they would be squeezed, nothing
differs but what is recorded. -/
theorem exec_squeezes_code [Limits] (terminal : Terminal) {code : String}
    (trimmed : Text.IsTrimmed code) :
    let executed := (Dialog.command ("exec " ++ code)).run.run terminal
    let fed := (Dialog.feed code).run.run terminal
    executed = (Dialog.feed (Text.squeezed code)).run.run terminal ∧
    (Text.EvenlySpaced code.toList → executed = fed) ∧
    (fed.1 = .ok () → executed = fed → Text.EvenlySpaced code.toList) ∧
    ((∀ c ∈ code.toList, Text.isLineBreak c = false) →
      tokenize (Text.squeezed code) = (tokenize code).map (List.map Token.squeezed) ∧
      ∀ lines, terminal.pending = Text.ended lines → Closes code → StringsEven code →
        executed.1 = fed.1 ∧ executed.2 = { fed.2 with history := executed.2.history }) := by
  intro executed fed
  have squeezed : executed = (Dialog.feed (Text.squeezed code)).run.run terminal := by
    change (Dialog.command ("exec " ++ code)).run.run terminal = _
    rw [Dialog.command_exec, Dialog.perform_exec trimmed.words_ne_nil, trimmed.unwords_words]
  refine ⟨squeezed, ?_, ?_, ?_⟩
  · intro even
    rw [squeezed, (Text.squeezed_eq_self_iff code).mpr even]
  · intro returned same
    rw [← Text.squeezed_eq_self_iff]
    have fedCode : (Dialog.feed code).run.run terminal = (.ok (), fed.2) := by
      rw [← returned]
      rfl
    have fedSqueezed : (Dialog.feed (Text.squeezed code)).run.run terminal = (.ok (), fed.2) :=
      squeezed.symm.trans (same.trans fedCode)
    exact Dialog.eq_of_run_feed trimmed.nonempty trimmed.squeezed_ne_empty trimmed.squeezed_ends.2
      fedCode fedSqueezed
  · intro unbroken
    have oneLine : Text.IsOneLine code := ⟨trimmed, unbroken⟩
    refine ⟨tokenize_squeezed oneLine, ?_⟩
    intro lines pending closes even
    have squeezedCloses : (Text.squeezed code).toList.getLast? ≠ some '\\' := by
      rw [trimmed.squeezed_ends.2]
      exact closes.2
    have sameTokens := tokenize_append_squeezed (Text.ended_whole lines) oneLine even
    have sameProgram : compile (terminal.pending ++ Text.squeezed code) =
        compile (terminal.pending ++ code) := by
      rw [pending, compile, compile, sameTokens]
    have ran : fed = (Dialog.runEntry (terminal.pending ++ code)).run.run terminal.closed :=
      Dialog.run_feed_closing closes.1 closes.2 terminal
    rw [squeezed, ran, Dialog.run_feed_closing trimmed.squeezed_ne_empty squeezedCloses]
    exact Dialog.runEntry_congr_history sameProgram terminal.closed

/-- An entry is open that the code closes. There are a tab and two spaces between its tokens, but only
one space in its string. -/
theorem exec_squeezes_code_between_tokens :
    let terminal : Terminal := { bare with pending := "local x = 7\n", continued := true }
    let code := "printline(\"a b\",\t  x)"
    let executed := (Dialog.command ("exec " ++ code)).run.run terminal
    let fed := (Dialog.feed code).run.run terminal
    Text.IsTrimmed code ∧ Closes code ∧ StringsEven code ∧ ¬Text.EvenlySpaced code.toList ∧
      fed.2.machine.console.output = .plain "a b 7 \n" ∧
      fed.2.history = #["local x = 7\nprintline(\"a b\",\t  x)"] ∧
      executed.2.history = #["local x = 7\nprintline(\"a b\", x)"] ∧
      executed.1 = fed.1 ∧ executed.2 = { fed.2 with history := executed.2.history } := by
  intro terminal code executed fed
  have shape : Text.IsTrimmed code ∧ StringsEven code ∧ ¬Text.EvenlySpaced code.toList ∧
      code.toList.all (!Text.isLineBreak ·) = true := by decide +kernel
  have left : fed.2.machine.console.output = .plain "a b 7 \n" ∧
      fed.2.history = #["local x = 7\nprintline(\"a b\",\t  x)"] ∧
      executed.2.history = #["local x = 7\nprintline(\"a b\", x)"] := by decide +kernel
  obtain ⟨trimmed, even, uneven, unbroken⟩ := shape
  obtain ⟨_, _, _, inOneLine⟩ := exec_squeezes_code terminal trimmed
  have same := (inOneLine (by simpa using unbroken)).2 ["local x = 7"] rfl (by decide) even
  exact ⟨trimmed, by decide, even, uneven, left.1, left.2.1, left.2.2, same.1, same.2⟩

/-- The two spaces are in a string, so that another text is written. -/
theorem exec_squeezes_string :
    let code := "printline(\"a  b\")"
    let executed := (Dialog.command ("exec " ++ code)).run.run bare
    let fed := (Dialog.feed code).run.run bare
    Text.IsTrimmed code ∧ code.toList.all (!Text.isLineBreak ·) = true ∧
      fed.2.machine.console.output = .plain "a  b \n" ∧
      executed.2.machine.console.output = .plain "a b \n" ∧
      fed.2.history = #["printline(\"a  b\")"] ∧ executed.2.history = #["printline(\"a b\")"] := by
  decide +kernel

end Terminal

end IndentScript
