import IndentScript.Proofs.Deeds
import IndentScript.Proofs.SourceSessions

/-!
Sessions of a terminal. It is told texts and command lines, or lines are typed at its prompt; the world
around it, with the input, the files and the other programs, may be another one every time. What it
is told may escape, and the next thing is told to the terminal that was left.
-/

namespace IndentScript

/-! ### Texts of entries -/

/-- The text closes the entry that it belongs to. -/
def Closes (text : String) : Prop :=
  text ≠ "" ∧ text.toList.getLast? ≠ some '\\'

instance : DecidablePred Closes :=
  fun _ => inferInstanceAs (Decidable (_ ∧ _))

variable [Limits]

namespace Dialog

/-- A text is ignored, or it is kept without its backslash, or it closes the entry and is run. -/
theorem run_feed_cases (text : String) (terminal : Terminal) :
    (text = "" ∧ (feed text).run.run terminal = (.ok (), terminal)) ∨
    (∃ front, text = front ++ "\\" ∧ (feed text).run.run terminal = (.ok (), terminal.opened front)) ∨
    Closes text ∧ (feed text).run.run terminal =
      (runEntry (terminal.pending ++ text)).run.run terminal.closed := by
  by_cases empty : text = ""
  · subst empty
    exact .inl ⟨rfl, rfl⟩
  · by_cases opens : text.toList.getLast? = some '\\'
    · obtain ⟨front, same⟩ := List.getLast?_eq_some_iff.mp opens
      have whole : text = String.ofList front ++ "\\" := by
        apply String.toList_inj.mp
        rw [same, String.toList_append, String.toList_ofList]
        rfl
      rw [whole]
      exact .inr (.inl ⟨_, rfl, run_feed_backslash _ terminal⟩)
    · exact .inr (.inr ⟨⟨empty, opens⟩, run_feed_closing empty opens terminal⟩)

theorem report_eq_throw {failure : Failure} {escape : Escape} {terminal left : Terminal}
    (escaped : (report failure).run.run terminal = (.error escape, left)) :
    left = terminal ∧ escape ≠ .quit ∧
      (escape = .unfinished → failure = .stopped .unfinished) := by
  unfold report at escaped
  split at escaped
  · cases escaped
    exact ⟨rfl, Escape.noConfusion, Escape.noConfusion⟩
  · cases escaped
    exact ⟨rfl, Escape.noConfusion, fun _ => rfl⟩
  · split at escaped
    · cases escaped
    · cases escaped
      exact ⟨rfl, Escape.noConfusion, Escape.noConfusion⟩

theorem conclude_eq_throw {code : String} {failure : Option Failure} {escape : Escape}
    {terminal left : Terminal} (escaped : (conclude code failure).run.run terminal = (.error escape, left)) :
    left = terminal ∧ escape ≠ .quit ∧
      (escape = .unfinished → failure = some (.stopped .unfinished)) := by
  cases failure with
  | none => cases escaped
  | some failure =>
      have reported : (report failure).run.run terminal = (.error escape, left) := by
        rw [conclude] at escaped
        cases ran : (report failure).run.run terminal with
        | mk ended middle =>
            cases ended with
            | ok _ =>
                rw [Run.run_bind_ok ran] at escaped
                cases escaped
            | error signal =>
                rw [Run.run_bind_error ran] at escaped
                cases escaped
                rfl
      obtain ⟨same, stays, unfinished⟩ := report_eq_throw reported
      exact ⟨same, stays, fun ends => congrArg some (unfinished ends)⟩

/-- What is left of the core when an entry was run: nothing is open, and the code is in the history
unless the entry escaped. -/
theorem core_closing {text : String} (closes : Closes text) (terminal : Terminal) :
    let code := terminal.pending ++ text
    let ran := terminal.machine.runSource code
    ((feed text).run.run terminal).2.core = ⟨ran.2.scopes, ran.2.console.input,
      if ((feed text).run.run terminal).1.toBool then terminal.history.push code
      else terminal.history, "", false⟩ := by
  intro code ran
  have source : terminal.closed.machine.runSource code = (ran.1, ran.2) := rfl
  rw [run_feed_closing closes.1 closes.2, run_runEntry source]
  rcases conclude_cases ran.1 with ⟨escape, escapes⟩ | ⟨written, writes⟩
  · rw [escapes]
    rfl
  · rw [writes]
    rfl

/-- Only a program that does not finish leaves the dialog unfinished. -/
theorem escape_closing {text : String} (closes : Closes text) {terminal left : Terminal}
    {escape : Escape} (escaped : (feed text).run.run terminal = (.error escape, left)) :
    escape ≠ .quit ∧ (escape = .unfinished →
      (terminal.machine.runSource (terminal.pending ++ text)).1 = some (.stopped .unfinished)) := by
  have source : terminal.closed.machine.runSource (terminal.pending ++ text) =
      (_, (terminal.machine.runSource (terminal.pending ++ text)).2) := rfl
  rw [run_feed_closing closes.1 closes.2, run_runEntry source] at escaped
  exact (conclude_eq_throw escaped).2

end Dialog

/-! ### What a terminal is told -/

def Command.ofLine? (line : String) : Option (Command × List String) :=
  match Text.words line with
  | [] => none
  | word :: arguments => (ofWord? (Text.lower word)).map fun command => (command, arguments)

inductive Told where
  | text (content : String)
  | command (line : String)

def Told.act : Told → Dialog Unit
  | .text content => Dialog.feed content
  | .command line => Dialog.command line

def Told.ofTyped (line : String) : Told :=
  match (Text.trim line).toList with
  | ':' :: rest => .command (String.ofList rest)
  | _ => .text (Text.trim line)

namespace Terminal

def doingsOf (terminal : Terminal) : Told → List Doing
  | .text text => [⟨terminal, .feed text⟩]
  | .command line =>
    match Command.ofLine? line with
    | some (command, arguments) => terminal.doings command arguments
    | none => []

/-- A typed line is recorded when it was taken, unless an entry is open then. -/
def doingsOfTyped (terminal : Terminal) (line : String) : List Doing :=
  terminal.doingsOf (.ofTyped line) ++
    match (Told.ofTyped line).act.run.run terminal with
    | (.ok (), after) => if after.continued then [] else [⟨after, .record (Text.trim line)⟩]
    | (.error _, _) => []

theorem takeLine_eq (line : String) :
    takeLine line = (do
      (Told.ofTyped line).act
      if !(← get).continued then Dialog.record (Text.trim line)) := by
  unfold takeLine
  dsimp only
  split
  · rename_i rest same
    have told : Told.ofTyped line = .command (String.ofList rest) := by
      simp only [Told.ofTyped, same]
    rw [told]
    rfl
  · rename_i noColon
    have told : Told.ofTyped line = .text (Text.trim line) := by
      unfold Told.ofTyped
      split
      · rename_i rest same
        exact absurd same (noColon rest)
      · rfl
    rw [told]
    rfl

end Terminal

namespace Dialog

theorem command_of_ofLine? {line : String} {known : Command} {arguments : List String}
    (found : Command.ofLine? line = some (known, arguments)) :
    command line = perform known arguments := by
  unfold Command.ofLine? at found
  unfold command
  cases words : Text.words line with
  | nil =>
      rw [words] at found
      cases found
  | cons word others =>
      rw [words] at found
      obtain ⟨other, isKnown, pair⟩ := Option.map_eq_some_iff.mp found
      cases pair
      simp only [isKnown]

theorem quiet_command {line : String} (unknown : Command.ofLine? line = none) (terminal : Terminal) :
    Quiet (command line) terminal := by
  unfold Command.ofLine? at unknown
  unfold command
  cases words : Text.words line with
  | nil => exact Quiet.pure ()
  | cons word others =>
      rw [words] at unknown
      have unnamed := Option.map_eq_none_iff.mp unknown
      simp only [unnamed]
      exact quiet_say _

end Dialog

theorem Deed.isOf_of_mem_doingsOf {words : String} {terminal : Terminal} {doing : Doing}
    (member : doing ∈ terminal.doingsOf (.command words)) :
    ∃ known, Command.ofLine? words = some known ∧ doing.deed.isOf known.1 = true := by
  rw [Terminal.doingsOf] at member
  cases found : Command.ofLine? words with
  | none =>
      rw [found] at member
      cases member
  | some known =>
      rw [found] at member
      exact ⟨known, rfl, Deed.isOf_of_mem_doings member⟩

theorem Told.through (told : Told) (terminal : Terminal) :
    Through terminal (terminal.doingsOf told) (told.act.run.run terminal) := by
  cases told with
  | text text => exact .of_deed (.feed text) terminal
  | command line =>
      rw [Terminal.doingsOf, Told.act]
      cases found : Command.ofLine? line with
      | none => exact .of_quiet (Dialog.quiet_command found terminal)
      | some known =>
          rw [Dialog.command_of_ofLine? found]
          exact Dialog.perform_through known.1 known.2 terminal

theorem Terminal.takeLine_through (line : String) (terminal : Terminal) :
    Through terminal (terminal.doingsOfTyped line) ((takeLine line).run.run terminal) := by
  have told := (Told.ofTyped line).through terminal
  rw [takeLine_eq, doingsOfTyped]
  cases ran : (Told.ofTyped line).act.run.run terminal with
  | mk ended after =>
      rw [ran] at told
      cases ended with
      | error escape =>
          rw [Run.run_bind_error ran, List.append_nil]
          exact told
      | ok _ =>
          rw [Run.run_bind_ok ran, Run.run_get_bind]
          dsimp only
          cases after.continued with
          | true => exact told.append (.of_quiet (Dialog.Quiet.pure ()))
          | false => exact told.append (.of_deed (.record _) after)

/-! ### Sessions -/

structure World where
  console : Console
  files : FileTree
  programEnd : ProgramEnds

inductive Event where
  | told (words : Told)
  | typed (line : String)

def Event.act : Event → Dialog Unit
  | .told words => words.act
  | .typed line => Terminal.takeLine line

namespace Terminal

def inWorld (world : World) (terminal : Terminal) : Terminal :=
  { terminal with
    machine.console := world.console
    files := world.files
    programEnd := world.programEnd }

def doingsIn (terminal : Terminal) : Event → List Doing
  | .told words => terminal.doingsOf words
  | .typed line => terminal.doingsOfTyped line

theorem event_through (event : Event) (terminal : Terminal) :
    Through terminal (terminal.doingsIn event) (event.act.run.run terminal) := by
  cases event with
  | told words => exact words.through terminal
  | typed line => exact takeLine_through line terminal

def after (terminal : Terminal) (event : Event) : Terminal :=
  (event.act.run.run terminal).2

def afterSession (terminal : Terminal) (session : List (World × Event)) : Terminal :=
  session.foldl (fun left step => (left.inWorld step.1).after step.2) terminal

/-- The terminal is left by a session of a new one. -/
def Reachable (terminal : Terminal) : Prop :=
  ∃ console files session, (new console files).afterSession session = terminal

end Terminal

end IndentScript
