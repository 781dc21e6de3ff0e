import IndentScript.Proofs.Turns

/-!
The history of a dialog. Two things are put into it: the code of every entry that was run to its end,
and every line that was taken, unless an entry is open then. A line of code that closes its entry is
therefore there twice, once in the code and once by itself, and a blank line is there, too. What the
terminal says of its history counts all of these.
-/

namespace IndentScript

def Deed.isAdding : Deed → Bool
  | .feed _ | .reset | .quit => true
  | .forget | .record _ => false

namespace Doing

variable [Limits]

def code? (doing : Doing) : Option String :=
  match doing.deed with
  | .feed text =>
    if Closes text ∧ doing.result.1.toBool = true then some (doing.terminal.pending ++ text) else none
  | .reset | .forget | .quit | .record _ => none

def note (kept : List String) (doing : Doing) : List String :=
  match doing.deed with
  | .feed _ => kept ++ doing.code?.toList
  | .forget => []
  | .record line => kept ++ [line]
  | .reset | .quit => kept

theorem code?_feed (text : String) (terminal : Terminal) :
    code? ⟨terminal, .feed text⟩ =
      if Closes text ∧ ((Dialog.feed text).run.run terminal).1.toBool = true then
        some (terminal.pending ++ text)
      else none :=
  rfl

theorem history_result (doing : Doing) :
    doing.result.2.core.history.toList = note doing.terminal.core.history.toList doing := by
  obtain ⟨terminal, deed⟩ := doing
  cases deed with
  | feed text =>
      change ((Dialog.feed text).run.run terminal).2.core.history.toList =
        terminal.history.toList ++ (code? ⟨terminal, .feed text⟩).toList
      rw [code?_feed]
      rcases Dialog.run_feed_cases text terminal with
        ⟨empty, ran⟩ | ⟨front, whole, ran⟩ | ⟨closes, _⟩
      · have opens : ¬Closes text := fun closes => closes.1 empty
        rw [if_neg fun both => opens both.1, ran]
        exact (List.append_nil _).symm
      · have opens : ¬Closes text := fun closes => closes.2 (by simp [whole])
        rw [if_neg fun both => opens both.1, ran]
        exact (List.append_nil _).symm
      · rw [Dialog.core_closing closes]
        by_cases taken : ((Dialog.feed text).run.run terminal).1.toBool = true
        · rw [if_pos taken, if_pos ⟨closes, taken⟩]
          exact Array.toList_push
        · rw [if_neg taken, if_neg fun both => taken both.2]
          exact (List.append_nil _).symm
  | reset => rfl
  | forget => rfl
  | quit => rfl
  | record line => exact Array.toList_push

/-- Deeds that neither empty the history nor record a line add the entries that they run. -/
theorem foldl_note {doings : List Doing} (adding : ∀ doing ∈ doings, doing.deed.isAdding = true)
    (kept : List String) : doings.foldl note kept = kept ++ doings.filterMap code? := by
  induction doings generalizing kept with
  | nil => simp
  | cons doing rest ih =>
      have others := ih fun other member => adding other (List.mem_cons_of_mem _ member)
      have adds := adding doing List.mem_cons_self
      have first : note kept doing = kept ++ doing.code?.toList := by
        unfold note code?
        cases same : doing.deed with
        | feed text => rfl
        | reset => simp
        | quit => simp
        | forget =>
            rw [same] at adds
            cases adds
        | record line =>
            rw [same] at adds
            cases adds
      rw [List.foldl_cons, others, first]
      cases found : doing.code? with
      | none => simp [found]
      | some code => simp [found]

end Doing

def Told.clears : Told → Bool
  | .text _ => false
  | .command words => (Command.ofLine? words).any fun known => known.1 = .clearHistory

namespace Terminal

def clears (terminal : Terminal) : Bool :=
  terminal.line?.any fun line => (Told.ofTyped line).clears

section

variable [Limits]

def records (terminal : Terminal) : List String :=
  match terminal.line? with
  | none => []
  | some line =>
    let told := Told.ofTyped line
    (terminal.ready.doingsOf told).filterMap Doing.code? ++
      match told.act.run.run terminal.ready with
      | (.ok (), after) => if after.continued then [] else [Text.trim line]
      | (.error _, _) => []

/-- The turns from the last one on that empties the history. -/
def sinceCleared : List Terminal → List Terminal
  | [] => []
  | turn :: rest => if rest.any clears then sinceCleared rest else turn :: rest

theorem doings_adding {command : Command} (other : command ≠ .clearHistory) (arguments : List String)
    (terminal : Terminal) :
    ∀ doing ∈ terminal.doings command arguments, doing.deed.isAdding = true := by
  intro doing member
  have has := Deed.isOf_of_mem_doings member
  unfold Deed.isOf at has
  cases same : doing.deed with
  | forget => simp_all
  | record line => simp_all
  | _ => rfl

/-- What a line tells the terminal adds the entries that are run. Only one command empties the history
before. -/
theorem foldl_note_told (told : Told) (terminal : Terminal) (kept : List String) :
    (terminal.doingsOf told).foldl Doing.note kept =
      (if told.clears then [] else kept) ++ (terminal.doingsOf told).filterMap Doing.code? := by
  cases told with
  | text text =>
      refine Doing.foldl_note ?_ kept
      intro doing member
      rw [List.mem_singleton.mp member]
      rfl
  | command words =>
      rw [doingsOf, Told.clears]
      cases Command.ofLine? words with
      | none => exact (List.append_nil kept).symm
      | some known =>
          obtain ⟨command, arguments⟩ := known
          by_cases clearing : command = .clearHistory
          · subst clearing
            rfl
          · simp only [Option.any_some, clearing, decide_false, Bool.false_eq_true, if_false]
            exact Doing.foldl_note (doings_adding clearing arguments terminal) kept

/-- A turn adds what it records to the history, which may have been emptied before. -/
theorem history_turn (terminal : Terminal) : terminal.turn.terminal.history.toList =
    (if terminal.clears then [] else terminal.history.toList) ++ terminal.records := by
  obtain ⟨result, through, same⟩ := turn_through terminal
  have before : terminal.ready.core.history.toList = terminal.history.toList :=
    congrArg (·.history.toList) terminal.core_ready
  have folded := through.foldl (fun kept core => core.history.toList = kept) Doing.note
    (fun doing _ kept same => same ▸ doing.history_result) terminal.history.toList before
  have history : terminal.turn.terminal.history.toList = result.2.core.history.toList :=
    congrArg (·.history.toList) same
  rw [history, folded, turnDoings, records, clears]
  cases terminal.line? with
  | none => exact (List.append_nil _).symm
  | some line =>
      dsimp only
      rw [doingsOfTyped, List.foldl_append, foldl_note_told, Option.any_some, ← List.append_assoc]
      cases (Told.ofTyped line).act.run.run terminal.ready with
      | mk ended left =>
          cases ended with
          | error escape => exact (List.append_nil _).symm
          | ok _ =>
              dsimp only
              cases left.continued with
              | true => exact (List.append_nil _).symm
              | false => rfl

omit [Limits] in
theorem sinceCleared_of_not_any {turns : List Terminal} (never : turns.any clears = false) :
    sinceCleared turns = turns := by
  cases turns with
  | nil => rfl
  | cons turn rest =>
      have neverLater : ¬rest.any clears = true := by
        intro later
        rw [List.any_cons, later, Bool.or_true] at never
        cases never
      rw [sinceCleared, if_neg neverLater]

theorem history_led {start last : Terminal} {turns : List Terminal} (led : Led start turns last) :
    last.history.toList = (if turns.any clears then [] else start.history.toList) ++
      (sinceCleared turns).flatMap records := by
  induction led with
  | start => simp [sinceCleared]
  | @turn terminal middle last turns goes _ ih =>
      -- A later turn that empties the history makes this one's records void.
      have once := history_turn terminal
      rw [goes, Turn.terminal] at once
      cases later : turns.any clears with
      | true => simp [ih, sinceCleared, later]
      | false =>
          have all := sinceCleared_of_not_any later
          rw [ih, later, all, once]
          simp [sinceCleared, later]

/-! ### What lines record -/

/-- A command that runs no code is recorded if it does not escape and no entry is open then. -/
theorem records_of_command {terminal : Terminal} {line words : String}
    (typed : terminal.line? = some line) (told : Told.ofTyped line = .command words)
    (idle : ∀ known, Command.ofLine? words = some known → known.1.isFeeding = false) :
    let taken := (Dialog.command words).run.run terminal.ready
    terminal.records =
      if taken.1.toBool = true ∧ taken.2.continued = false then [Text.trim line] else [] := by
  intro taken
  have none : (terminal.ready.doingsOf (.command words)).filterMap Doing.code? = [] := by
    rw [List.filterMap_eq_nil_iff]
    intro doing member
    obtain ⟨known, found, has⟩ := Deed.isOf_of_mem_doingsOf member
    rw [Doing.code?]
    cases same : doing.deed with
    | feed text =>
        rw [same, Deed.isOf, idle known found] at has
        cases has
    | _ => rfl
  rw [records, typed]
  dsimp only
  rw [told, none, List.nil_append, Told.act]
  change (match taken with
    | (.ok (), after) => if after.continued then [] else [Text.trim line]
    | (.error _, _) => []) = _
  obtain ⟨ended, after⟩ := taken
  cases ended with
  | error escape => simp [Except.toBool]
  | ok _ => cases isOpen : after.continued <;> simp [Except.toBool, isOpen]

/-- A line of code that closes its entry is recorded behind the entry. -/
theorem records_of_text {terminal : Terminal} {line : String} (typed : terminal.line? = some line)
    (code : Told.ofTyped line = .text (Text.trim line)) :
    let text := Text.trim line
    (text = "" → terminal.records = if terminal.continued then [] else [""]) ∧
    (text ≠ "" → ¬Closes text → terminal.records = []) ∧
    (Closes text → terminal.records =
      if ((Dialog.feed text).run.run terminal.ready).1.toBool = true then
        [terminal.pending ++ text, text]
      else []) := by
  intro text
  have all : terminal.records = (Doing.code? ⟨terminal.ready, .feed text⟩).toList ++
      match (Dialog.feed text).run.run terminal.ready with
      | (.ok (), after) => if after.continued then [] else [text]
      | (.error _, _) => [] := by
    rw [records, typed]
    dsimp only
    rw [code]
    change List.filterMap Doing.code? [⟨terminal.ready, .feed text⟩] ++ _ = _
    cases found : Doing.code? ⟨terminal.ready, .feed text⟩ <;> simp [found, Told.act, text]
  rw [all, Doing.code?_feed]
  refine ⟨?_, ?_, ?_⟩
  · intro empty
    have opens : ¬Closes text := fun closes => closes.1 empty
    have ran : (Dialog.feed text).run.run terminal.ready = (.ok (), terminal.ready) := by
      rw [empty]
      rfl
    rw [if_neg fun both => opens both.1, ran, empty]
    exact congrArg (fun core : Core => if core.continued then [] else [""]) terminal.core_ready
  · intro visible opens
    rcases Dialog.run_feed_cases text terminal.ready with
      ⟨empty, _⟩ | ⟨front, _, ran⟩ | ⟨closes, _⟩
    · exact absurd empty visible
    · rw [if_neg fun both => opens both.1, ran]
      rfl
    · exact absurd closes opens
  · intro closes
    have closed := congrArg Core.continued (Dialog.core_closing closes terminal.ready)
    cases ran : (Dialog.feed text).run.run terminal.ready with
    | mk ended after =>
        rw [ran] at closed
        cases ended with
        | error escape => simp [Except.toBool]
        | ok _ =>
            have idle : after.continued = false := closed
            have same : terminal.ready.pending = terminal.pending :=
              congrArg Core.pending terminal.core_ready
            simp [closes, idle, same, Except.toBool]

/-! ### What is said of the history -/

def lined (front : Content) (lines : List String) : Content :=
  lines.foldl (fun text line => text ++ (Content.plain line ++ Content.plain "\n")) front

def counts (size : Nat) : Command → List String
  | .stats => ["Session stats: " ++ toString size ++ " commands executed."]
  | .info =>
    ["FFling Terminal Info:", "Version: " ++ Dialog.versionText, "History size: " ++ toString size,
      "Built-in libraries: time (time_time, time_sleep)", "Keywords: 30+"]
  | _ => []

theorem output_counts {terminal : Terminal} {line words : String} {command : Command}
    {arguments : List String} (typed : terminal.line? = some line)
    (told : Told.ofTyped line = .command words)
    (known : Command.ofLine? words = some (command, arguments))
    (counting : command = .stats ∨ command = .info) :
    ∃ shown next, terminal.prompt? = some shown ∧ terminal.turn = .next next ∧
      next.machine.console.output =
        lined (terminal.machine.console.output ++ Content.plain shown)
          (counts terminal.history.size command) := by
  obtain ⟨shown, rest, asks, _⟩ := exists_of_line? typed
  have performs : (Told.ofTyped line).act = Dialog.perform command arguments := by
    rw [told]
    exact Dialog.command_of_ofLine? known
  rcases counting with rfl | rfl
  · obtain ⟨next, goes, same⟩ := turn_of_ok typed (by rw [performs, ready_of_prompt asks]; rfl)
    exact ⟨shown, next, asks, goes, by rw [same]; rfl⟩
  · obtain ⟨next, goes, same⟩ := turn_of_ok typed (by rw [performs, ready_of_prompt asks]; rfl)
    exact ⟨shown, next, asks, goes, by rw [same]; rfl⟩

end

def begun (console : Console) (files : FileTree) (programEnd : ProgramEnds) : Terminal :=
  { new console files with programEnd := programEnd }.write greeting

/-- At every prompt of a dialog the history holds what was recorded in the turns since the start, or
since the last turn that emptied it, in order, and the next turn goes on like this also if it is the
last. A line of code that closes its entry is recorded behind the code of the entry, unless the run
escapes, so an entry of one line is there twice; a blank line is recorded, too, and the lines of an
open entry are not, nor is a command that is given while one is open. The terminal tells how much
there is. -/
theorem history_of_turns [Limits] (console : Console) (files : FileTree) (programEnd : ProgramEnds)
    {turns : List Terminal} {last : Terminal} (led : Led (begun console files programEnd) turns last) :
    let recorded := (sinceCleared turns).flatMap records
    last.history.toList = recorded ∧
    last.turn.terminal.history.toList = (if last.clears then [] else recorded) ++ last.records ∧
    ∀ line, last.line? = some line →
      (Told.ofTyped line = .text (Text.trim line) →
        let text := Text.trim line
        (text = "" → last.records = if last.continued then [] else [""]) ∧
        (text ≠ "" → ¬Closes text → last.records = []) ∧
        (Closes text → last.records =
          if ((Dialog.feed text).run.run last.ready).1.toBool = true then [last.pending ++ text, text]
          else [])) ∧
      ∀ words, Told.ofTyped line = .command words →
        ((∀ known, Command.ofLine? words = some known → known.1.isFeeding = false) →
          let taken := (Dialog.command words).run.run last.ready
          last.records =
            if taken.1.toBool = true ∧ taken.2.continued = false then [Text.trim line] else []) ∧
        ∀ command arguments, Command.ofLine? words = some (command, arguments) →
          command = .stats ∨ command = .info →
          ∃ shown next, last.prompt? = some shown ∧ last.turn = .next next ∧
            next.machine.console.output =
              lined (last.machine.console.output ++ Content.plain shown)
                (counts recorded.length command) := by
  intro recorded
  have history : last.history.toList = recorded := by
    have all := history_led led
    have none : (begun console files programEnd).history.toList = [] := rfl
    rw [none, ite_self, List.nil_append] at all
    exact all
  have onward := history_turn last
  rw [history] at onward
  refine ⟨history, onward, ?_⟩
  intro line typed
  refine ⟨records_of_text typed, ?_⟩
  intro words told
  refine ⟨records_of_command typed told, ?_⟩
  intro command arguments known counting
  rw [← history, Array.length_toList]
  exact output_counts typed told known counting

/-- A line of code that was run is followed by a question for the size of the history. -/
theorem history_of_turns_stats :
    let console : Console := { input := [some "printline(1)", some ":stats"] }
    let start := begun console bare.files bare.programEnd
    ∃ last, Led start [start] last ∧ last.history.toList = ["printline(1)", "printline(1)"] ∧
      ∃ shown next, last.prompt? = some shown ∧ last.turn = .next next ∧
        next.machine.console.output = lined (last.machine.console.output ++ Content.plain shown)
          ["Session stats: 2 commands executed."] := by
  intro console start
  let last := ((takeLine "printline(1)").run.run start.ready).2
  have asks : start.prompt? = some "[/]ffling> " := by decide +kernel
  have goes : start.turn = .next last := by
    simp only [turn, asks]
    exact settle_of_ok (by decide +kernel)
  have led : Led start [start] last := .turn goes .start
  obtain ⟨history, _, lines⟩ := history_of_turns console bare.files bare.programEnd led
  have recorded : (sinceCleared [start]).flatMap records = ["printline(1)", "printline(1)"] := by
    decide +kernel
  rw [recorded] at history lines
  have asks : last.line? = some ":stats" := by decide +kernel
  have said := ((lines ":stats" asks).2 "stats" rfl).2 .stats [] (by decide +kernel) (.inl rfl)
  exact ⟨last, led, history, said⟩

/-- An entry of one line is counted twice. -/
theorem entry_recorded_twice :
    let left := (talk (bare.reading [some "printline(1)", some ":stats"])).2
    left.history = #["printline(1)", "printline(1)", ":stats"] ∧
      left.machine.console.output = .plain (greeting ++ "[/]ffling> 1 \n"
        ++ "[/]ffling> Session stats: 2 commands executed.\n[/]ffling> Goodbye!\n") :=
  ⟨by decide +kernel, by decide +kernel⟩

end Terminal

end IndentScript
