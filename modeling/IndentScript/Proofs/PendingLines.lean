import IndentScript.Proofs.TerminalSessions

/-!
The open entry of a terminal as a list of lines. A deed changes the list by a rule of its own, which
knows nothing of terminals; along every session the kept text is that of the list, and the terminal
knows whether the list is empty. The code that is run is the text of the list with the closing text
behind it, so an entry that is fed line by line is run as the text that it makes.
-/

namespace IndentScript

namespace Text

def ended : List String → String
  | [] => ""
  | line :: rest => line ++ "\n" ++ ended rest

theorem ended_append_single (lines : List String) (line : String) :
    ended (lines ++ [line]) = ended lines ++ line ++ "\n" := by
  induction lines with
  | nil => simp [ended]
  | cons first rest ih => simp [ended, ih, String.append_assoc]

end Text

def Deed.keep (lines : List String) : Deed → List String
  | .feed text =>
    if text = "" then lines
    else if text.toList.getLast? = some '\\' then lines ++ [String.ofList text.toList.dropLast]
    else []
  | .reset => []
  | .forget | .quit | .record _ => lines

namespace Terminal

structure Core.Keeps (lines : List String) (core : Core) : Prop where
  pending : core.pending = Text.ended lines
  continued : core.continued = true ↔ lines ≠ []

theorem Core.keeps_nil {core : Core} (pending : core.pending = "")
    (continued : core.continued = false) : core.Keeps [] := by
  constructor
  · exact pending
  · simp [continued]

theorem Core.Keeps.deed [Limits] {lines : List String} {terminal : Terminal}
    (keeps : terminal.core.Keeps lines) (deed : Deed) :
    (deed.act.run.run terminal).2.core.Keeps (deed.keep lines) := by
  cases deed with
  | feed text =>
      rw [Deed.act, Deed.keep]
      rcases Dialog.run_feed_cases text terminal with
        ⟨empty, ran⟩ | ⟨front, whole, ran⟩ | ⟨closes, _⟩
      · rw [if_pos empty, ran]
        exact keeps
      · have visible : text ≠ "" := by simp [whole]
        have opens : text.toList.getLast? = some '\\' := by simp [whole]
        have kept : String.ofList text.toList.dropLast = front := by simp [whole]
        rw [if_neg visible, if_pos opens, kept, ran]
        constructor
        · rw [Text.ended_append_single, ← keeps.pending]
          rfl
        · simp [core, opened]
      · rw [if_neg closes.1, if_neg closes.2, Dialog.core_closing closes]
        exact Core.keeps_nil rfl rfl
  | reset => exact Core.keeps_nil rfl rfl
  | forget => exact ⟨keeps.pending, keeps.continued⟩
  | quit => exact keeps
  | record line => exact ⟨keeps.pending, keeps.continued⟩

end Terminal

theorem Through.keeps [Limits] {before : Terminal} {doings : List Doing}
    {result : Except Escape Unit × Terminal} (through : Through before doings result)
    {lines : List String} (keeps : before.core.Keeps lines) :
    result.2.core.Keeps ((doings.map Doing.deed).foldl Deed.keep lines) := by
  rw [List.foldl_map]
  refine through.foldl (fun lines core => core.Keeps lines) _ ?_ lines keeps
  intro doing _ lines keeps
  exact keeps.deed doing.deed

theorem Closes.joined {last : String} (closes : Closes last) (lines : List String) :
    Closes (Text.joined lines last) := by
  constructor
  · exact Text.joined_ne_empty lines closes.1
  · rw [Text.getLast?_joined lines closes.1]
    exact closes.2

theorem Dialog.run_feed_lines [Limits] (lines : List String) {last : String} (closes : Closes last)
    (terminal : Terminal) :
    (do
      lines.forM fun line => feed (line ++ "\\")
      feed last).run.run terminal =
      (runEntry (terminal.pending ++ Text.joined lines last)).run.run terminal.closed := by
  induction lines generalizing terminal with
  | nil => exact run_feed_closing closes.1 closes.2 terminal
  | cons line rest ih =>
      have opened := run_feed_backslash line terminal
      have whole : (terminal.opened line).pending ++ Text.joined rest last =
          terminal.pending ++ Text.joined (line :: rest) last := by
        simp [Terminal.opened, Text.joined, String.append_assoc]
      rw [List.forM, bind_assoc, Run.run_bind_ok opened, ih, whole]
      rfl

namespace Terminal

def keptLines [Limits] (terminal : Terminal) (lines : List String) :
    List (World × Event) → List String
  | [] => lines
  | (world, event) :: rest =>
    let found := terminal.inWorld world
    (found.after event).keptLines (((found.doingsIn event).map Doing.deed).foldl Deed.keep lines) rest

theorem keeps_afterSession [Limits] {terminal : Terminal} {lines : List String}
    (keeps : terminal.core.Keeps lines) (session : List (World × Event)) :
    (terminal.afterSession session).core.Keeps (terminal.keptLines lines session) := by
  induction session generalizing terminal lines with
  | nil => exact keeps
  | cons step rest ih =>
      have found : (terminal.inWorld step.1).core.Keeps lines := ⟨keeps.pending, keeps.continued⟩
      exact ih ((event_through step.2 (terminal.inWorld step.1)).keeps found)

/-- Along a session the kept text is that of a list of lines, also in the midst of a command, and the
terminal knows whether the list is empty. A text that closes an entry is run behind the text of the
list. Feeding an entry line by line does what feeding its text does. -/
theorem pending_is_text_of_lines [Limits] (console : Console) (files : FileTree)
    (session : List (World × Event)) :
    let terminal := (new console files).afterSession session
    let lines := (new console files).keptLines [] session
    terminal.core.Keeps lines ∧
    (∀ world event,
      let found := terminal.inWorld world
      Through found (found.doingsIn event) (event.act.run.run found) ∧
      ∀ earlier later middle text,
        found.doingsIn event = earlier ++ ⟨middle, .feed text⟩ :: later →
        let kept := (earlier.map Doing.deed).foldl Deed.keep lines
        middle.core.Keeps kept ∧
        (Closes text → (Dialog.feed text).run.run middle =
          (Dialog.runEntry (Text.ended kept ++ text)).run.run middle.closed)) ∧
    ∀ front last, Closes last →
      (do
        front.forM fun line => Dialog.feed (line ++ "\\")
        Dialog.feed last).run.run terminal =
        (Dialog.feed (Text.joined front last)).run.run terminal := by
  intro terminal lines
  have keeps : terminal.core.Keeps lines := keeps_afterSession (Core.keeps_nil rfl rfl) session
  refine ⟨keeps, ?_, ?_⟩
  · intro world event found
    have through := event_through event found
    refine ⟨through, ?_⟩
    intro earlier later middle text split kept
    -- The deeds before the text make a session of their own, also if the command feeds many texts.
    rw [split] at through
    obtain ⟨left, reached, same⟩ := through.split
    have keptThen : middle.core.Keeps kept := by
      rw [show middle.core = left.2.core from same]
      exact reached.keeps ⟨keeps.pending, keeps.continued⟩
    refine ⟨keptThen, ?_⟩
    intro closes
    rw [Dialog.run_feed_closing closes.1 closes.2, ← keptThen.pending]
    rfl
  · intro front last closes
    have whole := closes.joined front
    rw [Dialog.run_feed_lines front closes, Dialog.run_feed_closing whole.1 whole.2]

/-- An entry is open when a command brings the text that closes it. -/
theorem pending_is_text_of_lines_exec :
    let world : World := ⟨{}, bare.files, bare.programEnd⟩
    let terminal := (bare.afterSession [(world, .told (.text "local a = 1\\"))]).inWorld world
    terminal.pending = "local a = 1\n" ∧
      (Dialog.command "exec printline(a)").run.run terminal =
        (Dialog.runEntry "local a = 1\nprintline(a)").run.run terminal.closed := by
  intro world terminal
  obtain ⟨keeps, events, _⟩ := pending_is_text_of_lines bare.machine.console bare.files
    [(world, .told (.text "local a = 1\\"))]
  obtain ⟨_, feeds⟩ := events world (.told (.command "exec printline(a)"))
  obtain ⟨_, runs⟩ := feeds [] [] terminal "printline(a)" rfl
  exact ⟨keeps.pending, runs (by decide)⟩

end Terminal

end IndentScript
