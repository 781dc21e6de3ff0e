import IndentScript.Proofs.LoadedFiles
import IndentScript.Proofs.WordSpacing
import IndentScript.Proofs.WrittenFiles

/-!
Texts in command lines. What follows the word of a command is cut into words, and a command that takes
a text puts the words together again. Saving words to a file and loading the file is therefore the same
as executing them: both ways end with the same text, and the tree of files has no part in what a text
does.
-/

namespace IndentScript

/-! ### Command lines -/

/-- The words behind the word of a command are its arguments. -/
theorem Command.ofLine?_append {word : String} (isWord : Text.IsWord word) {command : Command}
    (known : ofWord? (Text.lower word) = some command) (text : String) :
    ofLine? (word ++ " " ++ text) = some (command, Text.words text) := by
  have line : word ++ " " ++ text = String.ofList (word.toList ++ ' ' :: text.toList) := by
    apply String.toList_inj.mp
    simp
  rw [ofLine?, line, Text.words_append isWord Text.isBlank_space, String.ofList_toList]
  dsimp only
  rw [known]
  rfl

namespace Dialog

variable [Limits]

theorem command_append {word : String} (isWord : Text.IsWord word) {known : Command}
    (isKnown : Command.ofWord? (Text.lower word) = some known) (text : String) :
    command (word ++ " " ++ text) = perform known (Text.words text) :=
  command_of_ofLine? (Command.ofLine?_append isWord isKnown text)

theorem command_exec (text : String) :
    command ("exec " ++ text) = perform .exec (Text.words text) :=
  @command_append _ "exec" (by decide) .exec rfl text

theorem command_save (text : String) : command ("save " ++ text) = save (Text.words text) :=
  @command_append _ "save" (by decide) .save rfl text

theorem command_load (text : String) : command ("load " ++ text) = load (Text.words text) :=
  @command_append _ "load" (by decide) .load rfl text

theorem perform_exec {arguments : List String} (given : arguments ≠ []) :
    perform .exec arguments = feed (Text.unwords arguments) :=
  if_neg (by simpa using given)

/-! ### Saving and loading -/

/-- The tree of files has no part in what a text does, and is not changed by it. -/
theorem run_feed_files (text : String) (files : FileTree) (terminal : Terminal) :
    (feed text).run.run { terminal with files := files } =
      ((feed text).run.run terminal).map id fun left => { left with files := files } := by
  rcases run_feed_cases text terminal with ⟨rfl, fed⟩ | ⟨front, rfl, fed⟩ | ⟨closes, fed⟩
  · rw [fed]
    rfl
  · rw [fed, run_feed_backslash]
    rfl
  · rw [fed, run_feed_closing closes.1 closes.2]
    cases ran : terminal.closed.machine.runSource (terminal.pending ++ text) with
    | mk failure machine =>
        have ranHere : (Terminal.closed { terminal with files := files }).machine.runSource
            (terminal.pending ++ text) = (failure, machine) := ran
        rw [run_runEntry ran, run_runEntry ranHere]
        rcases conclude_cases failure with ⟨escape, escapes⟩ | ⟨notice, writes⟩
        · rw [escapes, escapes]
          rfl
        · rw [writes, writes]
          rfl

omit [Limits] in
/-- Words are saved with single spaces between them. -/
theorem run_save {parts : List String} (given : parts ≠ []) {name : String} {terminal : Terminal}
    {files : FileTree} (written : terminal.files.writeText name (Text.unwords parts) = .ok files) :
    (save (parts ++ [name])).run.run terminal =
      (.ok (), Terminal.said ("Saved to " ++ name) { terminal with files := files }) := by
  have enough : ¬(parts ++ [name]).length < 2 := by
    have some := List.length_pos_iff.mpr given
    rw [List.length_append, List.length_singleton]
    omega
  rw [save, if_neg enough, Run.run_get_bind, List.getLastD_concat, List.dropLast_concat, written]
  rfl

end Dialog

namespace Terminal

theorem said_eq_behind (text : String) (terminal : Terminal) :
    said text terminal =
      terminal.blank.behind (terminal.machine.console.output ++ Content.plain (text ++ "\n")) := by
  change { terminal with machine.console.output :=
    terminal.machine.console.output ++ Content.plain (text ++ "\n") } = { terminal with
      machine.console.output :=
        terminal.machine.console.output ++ Content.plain (text ++ "\n") ++ Content.plain "" }
  rw [Content.append_empty]

/-- Whatever words are saved to a file that can be written, loading the file does what executing the
words does, where that returns: all that is left is the same, apart from the file, and so is the output
between the two notices. -/
theorem save_load_eq_exec [Limits] (terminal : Terminal) {parts : List String} {name : String}
    (given : parts ≠ []) (areWords : ∀ part ∈ parts, Text.IsWord part) (isName : Text.IsWord name)
    (writable : ∃ content changed, terminal.files.writeText name content = .ok changed)
    {done : Terminal}
    (executed : (Dialog.command ("exec " ++ Text.unwords parts)).run.run terminal = (.ok (), done)) :
    ∃ files written,
      terminal.files.writeText name (Text.unwords parts) = .ok files ∧
      done.machine.console.output = terminal.machine.console.output ++ written ∧
      (do
        Dialog.command ("save " ++ Text.unwords (parts ++ [name]))
        Dialog.command ("load " ++ name)).run.run terminal =
      (.ok (), { done with
        files := files
        machine.console.output := terminal.machine.console.output ++
          .plain ("Saved to " ++ name ++ "\n") ++ written ++
          .plain ("Loaded and executed " ++ name ++ "\n") }) := by
  obtain ⟨content, changed, wrote⟩ := writable
  obtain ⟨files, written⟩ := FileTree.exists_writeText wrote (Text.unwords parts)
  have read : files.readText name = .ok (Text.unwords parts) :=
    FileTree.readText_writeText written (Text.not_mem_unwords (by decide) (by decide) areWords)
  have areAll : ∀ part ∈ parts ++ [name], Text.IsWord part := by
    simpa [or_imp, forall_and] using ⟨areWords, isName⟩
  -- what the text does on a terminal that has written nothing decides all the runs
  rw [Dialog.command_exec, Text.words_unwords areWords, Dialog.perform_exec given,
    ← terminal.behind_blank, Dialog.run_feed_behind] at executed
  cases fed : (Dialog.feed (Text.unwords parts)).run.run terminal.blank with
  | mk ended left =>
      rw [fed] at executed
      cases executed
      refine ⟨files, left.machine.console.output, written, rfl, ?_⟩
      let saved := Terminal.said ("Saved to " ++ name) { terminal with files := files }
      have fedSaved : (Dialog.feed (Text.unwords parts)).run.run saved =
          (.ok (), { left with files := files }.behind
            (terminal.machine.console.output ++ Content.plain ("Saved to " ++ name ++ "\n"))) := by
        change (Dialog.feed (Text.unwords parts)).run.run
          (Terminal.said ("Saved to " ++ name) { terminal with files := files }) = _
        rw [said_eq_behind, Dialog.run_feed_behind]
        change ((Dialog.feed (Text.unwords parts)).run.run
          { terminal.blank with files := files }).map id _ = _
        rw [Dialog.run_feed_files, fed]
        rfl
      have readSaved : saved.files.readText name = .ok (Text.unwords parts) := read
      rw [Dialog.command_save, Text.words_unwords areAll, Dialog.command_load,
        Text.words_of_isWord isName, Run.run_bind_ok (Dialog.run_save given written),
        Dialog.run_load_opening readSaved fedSaved []]
      rfl

/-- An entry is open, the file is there already, and not all of the text is plain. -/
theorem save_load_eq_exec_open_entry :
    let terminal : Terminal :=
      { bare.inWorld (worldOfFile "a.ff" "1") with pending := "local x = 7\n", continued := true }
    let parts := ["printline(\"é\",", "x)"]
    let done := ((Dialog.command ("exec " ++ Text.unwords parts)).run.run terminal).2
    parts ≠ [] ∧ (∀ part ∈ parts, Text.IsWord part) ∧ Text.IsWord "a.ff" ∧
      done.machine.console.output = .plain "é 7 \n" ∧
      ∃ files written,
        terminal.files.writeText "a.ff" (Text.unwords parts) = .ok files ∧
        done.machine.console.output = terminal.machine.console.output ++ written ∧
        (do
          Dialog.command ("save " ++ Text.unwords (parts ++ ["a.ff"]))
          Dialog.command ("load " ++ "a.ff")).run.run terminal =
        (.ok (), { done with
          files := files
          machine.console.output := terminal.machine.console.output ++
            .plain ("Saved to " ++ "a.ff" ++ "\n") ++ written ++
            .plain ("Loaded and executed " ++ "a.ff" ++ "\n") }) := by
  intro terminal parts done
  have areWords : ∀ part ∈ parts, Text.IsWord part := by decide
  have isName : Text.IsWord "a.ff" := by decide
  have writable : ∃ content changed, terminal.files.writeText "a.ff" content = .ok changed := by
    have success : (terminal.files.writeText "a.ff" "").toBool = true := by decide +kernel
    cases written : terminal.files.writeText "a.ff" "" with
    | ok changed => exact ⟨"", changed, written⟩
    | error fault =>
        rw [written] at success
        cases success
  have returned : ((Dialog.command ("exec " ++ Text.unwords parts)).run.run terminal).1.toBool = true := by
    decide +kernel
  have executed : (Dialog.command ("exec " ++ Text.unwords parts)).run.run terminal = (.ok (), done) := by
    cases ran : (Dialog.command ("exec " ++ Text.unwords parts)).run.run terminal with
    | mk ended left =>
        rw [ran] at returned
        cases ended with
        | ok _ => rw [show done = left from congrArg Prod.snd ran]
        | error escape => cases returned
  exact ⟨by decide, areWords, isName, by decide +kernel,
    save_load_eq_exec terminal (by decide) areWords isName writable executed⟩

end Terminal

end IndentScript
