import IndentScript.Proofs.OuterBlanks
import IndentScript.Proofs.Output
import IndentScript.Terminal.Loop

/-!
Entries typed line by line. The dialog trims every line before it looks at it, so the lines of an
entry lose the blanks at their starts: what is run is the text of the lines without them. On that
text, and with the prompts written before it, the dialog does what the terminal does when it is fed
the text as a whole.

So a text without indentation can be typed line by line. One with an indented block cannot. Where the
prompt cannot be shown no line is taken at all.
-/

namespace IndentScript

/-! ### What was written before an entry -/

namespace Terminal

def behind (front : Content) (terminal : Terminal) : Terminal :=
  { terminal with machine := terminal.machine.behind front }

def blank (terminal : Terminal) : Terminal :=
  { terminal with machine := terminal.machine.blank }

def reading (input : List (Option String)) (terminal : Terminal) : Terminal :=
  terminal.withConsole fun console => { console with input := input }

def opened (text : String) (terminal : Terminal) : Terminal :=
  { terminal with pending := terminal.pending ++ text ++ "\n", continued := true }

def closed (terminal : Terminal) : Terminal :=
  { terminal with pending := "", continued := false }

theorem behind_blank (terminal : Terminal) :
    terminal.blank.behind terminal.machine.console.output = terminal := by
  rw [behind, blank, Machine.behind_blank]

end Terminal

namespace Dialog

variable [Limits]

theorem report_cases (failure : Failure) :
    (∃ escape, report failure = throw escape) ∨ ∃ text, report failure = write text := by
  unfold report
  split
  · exact .inl ⟨_, rfl⟩
  · exact .inl ⟨_, rfl⟩
  · split
    · exact .inr ⟨_, rfl⟩
    · exact .inl ⟨_, rfl⟩

def conclude (code : String) : Option Failure → Dialog Unit
  | none => record code
  | some failure => do
    report failure
    record code

theorem run_runEntry {code : String} {terminal : Terminal} {failure : Option Failure}
    {machine : Machine} (ran : terminal.machine.runSource code = (failure, machine)) :
    (runEntry code).run.run terminal =
      (conclude code failure).run.run { terminal with machine := machine } := by
  rw [runEntry, Run.run_get_bind, ran]
  cases failure with
  | none => rfl
  | some failure => rfl

/-- A conclusion escapes, or it writes a text and records the entry. -/
theorem conclude_cases (failure : Option Failure) :
    (∃ escape, ∀ code terminal, (conclude code failure).run.run terminal = (.error escape, terminal)) ∨
      ∃ text, ∀ code terminal, (conclude code failure).run.run terminal =
        (.ok (), { terminal.withConsole (·.write text) with
          history := terminal.history.push code }) := by
  cases failure with
  | none =>
      refine .inr ⟨.plain "", fun code terminal => ?_⟩
      change _ = (Except.ok (), { terminal with
        machine.console.output := terminal.machine.console.output ++ Content.plain ""
        history := terminal.history.push code })
      rw [Content.append_empty]
      rfl
  | some failure =>
      rcases report_cases failure with ⟨escape, same⟩ | ⟨text, same⟩
      · refine .inl ⟨escape, fun code terminal => ?_⟩
        rw [conclude, same]
        rfl
      · refine .inr ⟨text, fun code terminal => ?_⟩
        rw [conclude, same]
        rfl

theorem run_conclude_behind (code : String) (failure : Option Failure) (front : Content)
    (terminal : Terminal) : (conclude code failure).run.run (terminal.behind front) =
      ((conclude code failure).run.run terminal).map id (Terminal.behind front) := by
  rcases conclude_cases failure with ⟨escape, escapes⟩ | ⟨text, writes⟩
  · rw [escapes, escapes]
    rfl
  · rw [writes, writes]
    change (Except.ok (), { terminal with
      machine.console.output := front ++ terminal.machine.console.output ++ text
      history := terminal.history.push code }) = _
    rw [Content.append_assoc]
    rfl

theorem continued_conclude (code : String) (failure : Option Failure) (terminal : Terminal) :
    ((conclude code failure).run.run terminal).2.continued = terminal.continued := by
  rcases conclude_cases failure with ⟨escape, escapes⟩ | ⟨text, writes⟩
  · rw [escapes]
  · rw [writes]
    rfl

/-- What an entry does apart from the history depends on its program only. -/
theorem runEntry_congr {code other : String} (same : compile code = compile other)
    (terminal : Terminal) :
    ((runEntry code).run.run terminal).1 = ((runEntry other).run.run terminal).1 ∧
      ((runEntry code).run.run terminal).2.machine =
        ((runEntry other).run.run terminal).2.machine := by
  have sameRun : terminal.machine.runSource code = terminal.machine.runSource other := by
    rw [Machine.runSource, Machine.runSource, same]
  cases ran : terminal.machine.runSource other with
  | mk failure machine =>
      rw [run_runEntry ran, run_runEntry (sameRun.trans ran)]
      rcases conclude_cases failure with ⟨escape, escapes⟩ | ⟨text, writes⟩
      · rw [escapes, escapes]
        exact ⟨rfl, rfl⟩
      · rw [writes, writes]
        exact ⟨rfl, rfl⟩

theorem run_runEntry_behind (code : String) (front : Content) (terminal : Terminal) :
    (runEntry code).run.run (terminal.behind front) =
      ((runEntry code).run.run terminal).map id (Terminal.behind front) := by
  cases ran : terminal.machine.runSource code with
  | mk failure machine =>
      have shifted := Machine.runSource_behind code front terminal.machine
      rw [ran] at shifted
      rw [run_runEntry ran, run_runEntry shifted]
      exact run_conclude_behind code failure front { terminal with machine := machine }

theorem run_feed_closing {text : String} (visible : text ≠ "")
    (closes : text.toList.getLast? ≠ some '\\') (terminal : Terminal) :
    (feed text).run.run terminal = (runEntry (terminal.pending ++ text)).run.run terminal.closed := by
  have full : ¬text.isEmpty = true := fun empty => visible (String.isEmpty_iff.mp empty)
  rw [feed, if_neg full, Run.run_get_bind, if_neg closes]
  rfl

theorem run_feed_behind (text : String) (front : Content) (terminal : Terminal) :
    (feed text).run.run (terminal.behind front) =
      ((feed text).run.run terminal).map id (Terminal.behind front) := by
  by_cases empty : text = ""
  · rw [empty]
    rfl
  · by_cases opens : text.toList.getLast? = some '\\'
    · have full : ¬text.isEmpty = true := fun nothing => empty (String.isEmpty_iff.mp nothing)
      rw [feed, if_neg full, Run.run_get_bind, Run.run_get_bind, if_pos opens, if_pos opens]
      rfl
    · rw [run_feed_closing empty opens, run_feed_closing empty opens]
      exact run_runEntry_behind _ front terminal.closed

theorem run_feed_backslash (text : String) (terminal : Terminal) :
    (feed (text ++ "\\")).run.run terminal = (.ok (), terminal.opened text) := by
  have full : ¬(text ++ "\\").isEmpty = true := by simp
  have last : (text ++ "\\").toList.getLast? = some '\\' := by simp
  have kept : String.ofList (text ++ "\\").toList.dropLast = text := by simp
  rw [feed, if_neg full, Run.run_get_bind, if_pos last, kept]
  rfl

theorem continued_runEntry (code : String) (terminal : Terminal) :
    ((runEntry code).run.run terminal).2.continued = terminal.continued := by
  cases ran : terminal.machine.runSource code with
  | mk failure machine =>
      rw [run_runEntry ran]
      exact continued_conclude code failure { terminal with machine := machine }

end Dialog

/-! ### Lines of the dialog -/

namespace Terminal

/-- The line, after the blanks at its start, does not begin with a colon. -/
def IsCode (line : String) : Prop :=
  (Text.trimStart line).toList.head? ≠ some ':'

instance : DecidablePred IsCode :=
  fun _ => inferInstanceAs (Decidable (_ ≠ _))

section

variable [Limits]

def goOn (budget : Nat) : Except Escape Unit × Terminal → DialogEnd × Terminal
  | (.ok (), left) => talkWithin budget left
  | (.error .quit, left) => (.quit, left)
  | (.error .interrupt, left) => talkWithin budget (left.write interruptText)
  | (.error .unfinished, left) => (.unfinished, left)
  | (.error (.fault cause), left) => talkWithin budget (left.write (faultText cause.message))
  | (.error (.path cause), left) => talkWithin budget (left.write (faultText cause.message))

theorem talkWithin_line {terminal : Terminal} {shown line : String} {rest : List (Option String)}
    (asks : terminal.prompt? = some shown)
    (input : terminal.machine.console.input = some line :: rest) (budget : Nat) :
    talkWithin (budget + 1) terminal =
      goOn budget ((takeLine line).run.run ((terminal.write shown).reading rest)) := by
  have asked : (terminal.write shown).machine.console.input = some line :: rest := input
  simp only [talkWithin, asks, asked]
  change _ = goOn budget ((takeLine line).run.run
    ((terminal.write shown).withConsole fun console => { console with input := rest }))
  generalize (takeLine line).run.run ((terminal.write shown).withConsole fun console =>
    { console with input := rest }) = taken
  obtain ⟨ended, left⟩ := taken
  cases ended with
  | ok _ => rfl
  | error escape => cases escape <;> rfl

/-- What has happened when a line was taken: it is put into the history unless it escaped. -/
def noted (line : String) : Except Escape Unit × Terminal → Except Escape Unit × Terminal
  | (.ok (), left) => (.ok (), { left with history := left.history.push line })
  | (.error escape, left) => (.error escape, left)

omit [Limits] in
theorem noted_behind (line : String) (front : Content) (taken : Except Escape Unit × Terminal) :
    noted line (taken.map id (behind front)) = (noted line taken).map id (behind front) := by
  obtain ⟨ended, left⟩ := taken
  cases ended with
  | ok _ => rfl
  | error escape => rfl

theorem takeLine_of_isCode {line : String} (code : IsCode line) :
    takeLine line = (do
      Dialog.feed (Text.trim line)
      if !(← get).continued then Dialog.record (Text.trim line)) := by
  unfold takeLine
  dsimp only
  split
  · rename_i rest colon
    -- The first character of the trimmed line is the first one behind the blanks of the line.
    obtain ⟨back, _, same⟩ := Text.exists_trim_blanks line
    rw [colon] at same
    exact absurd (congrArg List.head? same) code
  · rfl

omit [Limits] in
theorem IsCode.backslash {line : String} (code : IsCode line) : IsCode (line ++ "\\") := by
  unfold IsCode at code ⊢
  rw [Text.trimStart_backslash, String.toList_append]
  cases start : (Text.trimStart line).toList with
  | nil => decide
  | cons first rest =>
      rw [start] at code
      exact code

theorem run_takeLine_backslash {line : String} (code : IsCode line) (terminal : Terminal) :
    (takeLine (line ++ "\\")).run.run terminal = (.ok (), terminal.opened (Text.trimStart line)) := by
  rw [takeLine_of_isCode code.backslash, Text.trim_backslash,
    Run.run_bind_ok (Dialog.run_feed_backslash _ terminal)]
  rfl

theorem run_takeLine_closing {line : String} (code : IsCode line) (visible : Text.trim line ≠ "")
    (closes : (Text.trim line).toList.getLast? ≠ some '\\') (terminal : Terminal) :
    (takeLine line).run.run terminal = noted (Text.trim line)
      ((Dialog.runEntry (terminal.pending ++ Text.trim line)).run.run terminal.closed) := by
  have closed := Dialog.continued_runEntry (terminal.pending ++ Text.trim line) terminal.closed
  have fed := Dialog.run_feed_closing visible closes terminal
  rw [takeLine_of_isCode code]
  cases ran : (Dialog.runEntry (terminal.pending ++ Text.trim line)).run.run terminal.closed with
  | mk ended left =>
      rw [ran] at closed fed
      cases ended with
      | error escape => exact Run.run_bind_error fed _
      | ok _ =>
          rw [Run.run_bind_ok fed, Run.run_get_bind, show left.continued = false from closed]
          rfl

/-! ### Entries -/

def marks : Nat → String
  | 0 => ""
  | count + 1 => "...   " ++ marks count

def typed (lines : List String) (last : String) : List (Option String) :=
  lines.map (fun line => some (line ++ "\\")) ++ [some last]

omit [Limits] in
theorem write_write (terminal : Terminal) (first second : String) :
    (terminal.write first).write second = terminal.write (first ++ second) := by
  change { terminal with machine.console.output :=
    terminal.machine.console.output ++ Content.plain first ++ Content.plain second } = _
  rw [Content.append_assoc]
  rfl

omit [Limits] in
theorem reading_write (terminal : Terminal) (text : String) (input : List (Option String)) :
    (terminal.write text).reading input = (terminal.blank.reading input).behind
      (terminal.machine.console.output ++ Content.plain text) := by
  change _ = { terminal with machine.console := { terminal.machine.console with
    input := input
    output := terminal.machine.console.output ++ Content.plain text ++ Content.plain "" } }
  rw [Content.append_empty]
  rfl

/-- A prompt that cannot be shown is not shown later either, and no line is taken. -/
theorem talkWithin_unprompted {terminal : Terminal} (fails : terminal.prompt? = none)
    (budget : Nat) :
    ∃ text, talkWithin budget terminal = (.unfinished, terminal.write text) := by
  induction budget generalizing terminal with
  | zero =>
      refine ⟨"", congrArg (Prod.mk DialogEnd.unfinished) ?_⟩
      change terminal = { terminal with machine.console.output :=
        terminal.machine.console.output ++ Content.plain "" }
      rw [Content.append_empty]
  | succ budget ih =>
      -- What is written changes neither the files nor whether an entry is open.
      have failsAgain : (terminal.write (faultText FileTree.goneText)).prompt? = none := fails
      obtain ⟨text, talked⟩ := ih failsAgain
      refine ⟨faultText FileTree.goneText ++ text, ?_⟩
      simp only [talkWithin, fails]
      rw [talked, write_write]

/-- Typed lines are run without the blanks at their starts, behind what is kept. -/
theorem talkWithin_lines {lines : List String} {last : String}
    (code : ∀ line ∈ last :: lines, IsCode line) (visible : Text.trim last ≠ "")
    (closes : (Text.trim last).toList.getLast? ≠ some '\\') (budget : Nat)
    (later : List (Option String)) {terminal : Terminal} {shown : String}
    (asks : terminal.prompt? = some shown) :
    talkWithin (budget + lines.length + 1) (terminal.reading (typed lines last ++ later)) =
      goOn budget (noted (Text.trim last) ((Dialog.runEntry (terminal.pending ++
        Text.joined (lines.map Text.trimStart) (Text.trim last))).run.run
          ((terminal.write (shown ++ marks lines.length)).reading later).closed)) := by
  -- Every line but the last adds to what is kept, so the terminal varies along the lines.
  induction lines generalizing terminal shown with
  | nil =>
      have ready : (terminal.reading (typed [] last ++ later)).prompt? = some shown := asks
      have input : (terminal.reading (typed [] last ++ later)).machine.console.input =
        some last :: later := rfl
      rw [talkWithin_line ready input,
        run_takeLine_closing (code last List.mem_cons_self) visible closes, List.length_nil, marks,
        String.append_empty]
      rfl
  | cons line rest ih =>
      have ready : (terminal.reading (typed (line :: rest) last ++ later)).prompt? = some shown := asks
      have input : (terminal.reading (typed (line :: rest) last ++ later)).machine.console.input =
        some (line ++ "\\") :: (typed rest last ++ later) := rfl
      let next := (terminal.write shown).opened (Text.trimStart line)
      have asksOn : next.prompt? = some "...   " := rfl
      have others := ih (fun other member => code other (by grind)) asksOn
      have kept : next.pending ++ Text.joined (rest.map Text.trimStart) (Text.trim last) =
          terminal.pending ++ Text.joined ((line :: rest).map Text.trimStart) (Text.trim last) := by
        rw [List.map_cons, Text.joined]
        simp only [next, opened, String.append_assoc]
        rfl
      have marked : ((next.write ("...   " ++ marks rest.length)).reading later).closed =
          ((terminal.write (shown ++ marks (line :: rest).length)).reading later).closed := by
        have longer : marks (line :: rest).length = "...   " ++ marks rest.length := rfl
        rw [longer, ← write_write terminal shown]
        rfl
      rw [kept, marked] at others
      rw [talkWithin_line ready input, run_takeLine_backslash (code line (by simp))]
      exact others

theorem run_feed_idle (terminal : Terminal) (idle : terminal.pending = "") {text : String}
    (visible : text ≠ "") (closes : text.toList.getLast? ≠ some '\\') :
    (Dialog.feed text).run.run terminal = (Dialog.runEntry text).run.run terminal.closed := by
  rw [Dialog.run_feed_closing visible closes, idle, String.empty_append]

/-- Lines that are typed while nothing is kept are run without the blanks at their starts. The dialog
then does what the terminal does when it is fed that text as a whole, with the prompts in front of
what is written and the last line in the history. Where no line is indented, feeding the lines as
they are has the same effect on the machine. If the first prompt cannot be shown, no line is taken. -/
theorem talkWithin_typed {terminal : Terminal} (idle : terminal.pending = "") {lines : List String}
    {last : String} (code : ∀ line ∈ last :: lines, IsCode line) (visible : Text.trim last ≠ "")
    (closes : (Text.trim last).toList.getLast? ≠ some '\\') (budget : Nat)
    (later : List (Option String)) :
    let trimmed := Text.joined (lines.map Text.trimStart) (Text.trim last)
    let written := terminal.machine.console.output
    let fed := (Dialog.feed trimmed).run.run (terminal.blank.reading later)
    let whole := (Dialog.feed (Text.joined lines last)).run.run (terminal.reading later)
    let dialog := terminal.reading (typed lines last ++ later)
    (∀ shown, terminal.prompt? = some shown → talkWithin (budget + lines.length + 1) dialog =
        goOn budget ((noted (Text.trim last) fed).map id
          (behind (written ++ Content.plain (shown ++ marks lines.length))))) ∧
      (terminal.prompt? = none → ∃ text,
        talkWithin (budget + lines.length + 1) dialog = (.unfinished, dialog.write text)) ∧
      (Dialog.feed trimmed).run.run (terminal.reading later) = fed.map id (behind written) ∧
      ((∀ line ∈ last :: lines, Text.Unindented line) →
        whole.1 = fed.1 ∧ whole.2.machine = fed.2.machine.behind written) := by
  intro trimmed written fed whole dialog
  have ready : terminal.reading later = (terminal.blank.reading later).behind written :=
    congrArg (reading later) terminal.behind_blank.symm
  have prompted : ∀ text, ((terminal.write text).reading later).closed =
      (terminal.blank.reading later).closed.behind (written ++ Content.plain text) :=
    fun text => congrArg closed (reading_write terminal text later)
  have trimmedCloses : trimmed.toList.getLast? ≠ some '\\' := by
    rw [Text.getLast?_joined _ visible]
    exact closes
  have fedRuns : fed = (Dialog.runEntry trimmed).run.run (terminal.blank.reading later).closed :=
    run_feed_idle (terminal.blank.reading later) idle (Text.joined_ne_empty _ visible) trimmedCloses
  refine ⟨?_, ?_, ?_, ?_⟩
  · intro shown asks
    rw [talkWithin_lines code visible closes budget later asks, idle, String.empty_append, prompted,
      Dialog.run_runEntry_behind, ← fedRuns, noted_behind]
  · intro fails
    have failsThere : dialog.prompt? = none := fails
    exact talkWithin_unprompted failsThere _
  · rw [ready, Dialog.run_feed_behind]
  · intro unindented
    have lastVisible : last ≠ "" := by
      rintro rfl
      exact visible rfl
    have wholeCloses : (Text.joined lines last).toList.getLast? ≠ some '\\' := by
      rw [Text.getLast?_joined _ lastVisible]
      exact Text.getLast?_ne_of_trim visible (by decide) closes
    have wholeRuns : whole = (Dialog.runEntry (Text.joined lines last)).run.run
        ((terminal.blank.reading later).closed.behind written) := by
      have readyClosed : (terminal.reading later).closed =
          (terminal.blank.reading later).closed.behind written := congrArg closed ready
      rw [← readyClosed]
      exact run_feed_idle (terminal.reading later) idle (Text.joined_ne_empty lines lastVisible)
        wholeCloses
    obtain ⟨sameEnd, sameMachine⟩ := Dialog.runEntry_congr (compile_trimmed visible unindented)
      (terminal.blank.reading later).closed
    rw [wholeRuns, Dialog.run_runEntry_behind, fedRuns, sameEnd, sameMachine]
    exact ⟨rfl, rfl⟩

end

def bare : Terminal :=
  .new {} ⟨.folder [], []⟩

/-- The second line has a tab at its start, which is no indentation, and a space at its end. -/
theorem talkWithin_typed_tab :
    let fed := (Dialog.feed "local n = 2\nprintline(n)").run.run bare
    let whole := (Dialog.feed "local n = 2\n\tprintline(n) ").run.run bare
    fed.2.machine.console.output = .plain "2 \n" ∧
      talkWithin 3 (bare.reading [some "local n = 2\\", some "\tprintline(n) "]) =
        goOn 1 ((noted "printline(n)" fed).map id (behind (.plain "[/]ffling> ...   "))) ∧
      whole.2.machine = fed.2.machine.behind (.plain "") := by
  intro fed whole
  have trimmed : Text.joined (["local n = 2"].map Text.trimStart) (Text.trim "\tprintline(n) ") =
      "local n = 2\nprintline(n)" := by decide +kernel
  have last : Text.trim "\tprintline(n) " = "printline(n)" := by decide +kernel
  have asks : bare.prompt? = some "[/]ffling> " := by decide +kernel
  have prompted : bare.machine.console.output ++
      Content.plain ("[/]ffling> " ++ marks ["local n = 2"].length) = .plain "[/]ffling> ...   " := by
    decide +kernel
  have silent : bare.blank.reading [] = bare := by
    simp only [bare, blank, reading, withConsole, Machine.blank, Terminal.new, Machine.new]
  have idle : bare.reading [] = bare := by
    simp only [bare, reading, withConsole, Terminal.new, Machine.new]
  obtain ⟨prompts, _, _, flat⟩ := @talkWithin_typed _ bare rfl ["local n = 2"] "\tprintline(n) "
    (by decide +kernel) (by decide +kernel) (by decide +kernel) 1 []
  have typed := prompts _ asks
  rw [trimmed, last, prompted, silent] at typed
  rw [trimmed, silent, idle] at flat
  exact ⟨by decide +kernel, typed, (flat (by decide +kernel)).2⟩

/-- An indented line loses its indentation when it is typed. -/
theorem typed_block_refused :
    ((Dialog.feed (Text.joined ["if (1):"] "    printline(2)")).run.run
        bare).2.machine.console.output = .plain "2 \n" ∧
      (talkWithin 3 (bare.reading (typed ["if (1):"] "    printline(2)"))).2.machine.console.output =
        .plain ("[/]ffling> ...   Syntax Error: Syntax error: Expected INDENT, got "
          ++ "Token(PRINTLINE, 'printline', line 2) at token Token(PRINTLINE, 'printline', line 2)\n"
          ++ "[/]ffling> Goodbye!\n") :=
  ⟨by decide +kernel, by decide +kernel⟩

end Terminal

end IndentScript
