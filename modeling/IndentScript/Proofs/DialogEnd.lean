import IndentScript.Proofs.CommandFrames
import IndentScript.Proofs.Readers
import IndentScript.Proofs.Turns

/-!
How the dialog ends, and who has read the input then. A turn whose prompt is shown takes at least one
line, so the dialog comes to the end of the input if nothing ends it before. Only a command to quit
does, as long as the programs come to an end. Every line is taken by one reader: by a prompt, or by a
call in a program.

A prompt that is to show the working folder fails once another program has removed it. No line is
taken then, and the dialog is at the same prompt again: it does not end.
-/

namespace IndentScript

/-! ### Readers of a dialog -/

section

variable [Limits]

def Doing.readers (doing : Doing) : List Reader :=
  match doing.deed with
  | .feed text =>
    if Closes text then
      match compile (doing.terminal.pending ++ text) with
      | .ok program => (doing.terminal.machine.beginning program).readers Run.roundLimit
      | .error _ => []
    else []
  | .reset | .forget | .quit | .record _ => []

theorem Machine.input_runSource {machine : Machine} (guarded : Run.Guarded 0 machine.scopes)
    (source : String) :
    machine.console.input =
      (match compile source with
        | .ok program => (machine.beginning program).readers Run.roundLimit
        | .error _ => []).filterMap Reader.line? ++ (machine.runSource source).2.console.input := by
  rw [runSource]
  cases compiled : compile source with
  | error failure => rfl
  | ok program =>
      have order : (machine.beginning program).InOrder :=
        ⟨Stmt.areRead_of_compile compiled, 0, guarded⟩
      change _ = _ ++ (machine.runProgram program).2.console.input
      rw [runProgram_snd]
      exact order.input_eq Run.roundLimit

theorem Doing.input_eq {doing : Doing} (guarded : Run.Guarded 0 doing.terminal.core.scopes) :
    doing.terminal.core.input =
      doing.readers.filterMap Reader.line? ++ doing.result.2.core.input := by
  obtain ⟨terminal, deed⟩ := doing
  cases deed with
  | feed text =>
      rw [readers, result]
      dsimp only [Deed.act]
      rcases Dialog.run_feed_cases text terminal with
        ⟨empty, ran⟩ | ⟨front, whole, ran⟩ | ⟨closes, _⟩
      · have opens : ¬Closes text := fun closes => closes.1 empty
        rw [if_neg opens, ran]
        rfl
      · have opens : ¬Closes text := fun closes => closes.2 (by simp [whole])
        rw [if_neg opens, ran]
        rfl
      · rw [if_pos closes, Dialog.core_closing closes]
        exact Machine.input_runSource guarded _
  | reset => rfl
  | forget => rfl
  | quit => rfl
  | record line => rfl

theorem Through.input_eq {before : Terminal} {doings : List Doing}
    {result : Except Escape Unit × Terminal} (through : Through before doings result)
    (guarded : Run.Guarded 0 before.core.scopes) :
    before.core.input =
      (doings.flatMap Doing.readers).filterMap Reader.line? ++ result.2.core.input := by
  induction doings generalizing before result with
  | nil =>
      rw [through.core_of_nil]
      rfl
  | cons doing rest ih =>
      obtain ⟨same, ended, later⟩ := through.tail
      rw [← same] at guarded ⊢
      have left := ih later (Terminal.guarded_deed doing.deed guarded)
      rw [List.flatMap_cons, List.filterMap_append, List.append_assoc, ← left]
      exact Doing.input_eq guarded

namespace Terminal

def turnReaders (terminal : Terminal) : List Reader :=
  match terminal.prompt? with
  | some _ => .prompt terminal :: terminal.turnDoings.flatMap Doing.readers
  | none => []

theorem input_turn {terminal : Terminal} (guarded : Run.Guarded 0 terminal.core.scopes) :
    terminal.machine.console.input = terminal.turnReaders.filterMap Reader.line? ++
      terminal.turn.terminal.machine.console.input := by
  cases asks : terminal.prompt? with
  | none =>
      simp only [turnReaders, turn, asks]
      rfl
  | some shown =>
      obtain ⟨result, through, same⟩ := turn_through terminal
      have left : terminal.turn.terminal.machine.console.input = result.2.core.input :=
        congrArg Core.input same
      rw [ready_of_prompt asks] at through
      have behind : terminal.machine.console.input.tail =
          (terminal.turnDoings.flatMap Doing.readers).filterMap Reader.line? ++
            result.2.core.input := through.input_eq guarded
      simp only [left, turnReaders, asks, List.filterMap_cons, Reader.line?]
      cases input : terminal.machine.console.input with
      | nil =>
          rw [input] at behind
          exact behind
      | cons line rest =>
          rw [input] at behind
          exact congrArg (line :: ·) behind

theorem guarded_turn {terminal : Terminal} (guarded : Run.Guarded 0 terminal.core.scopes) :
    Run.Guarded 0 terminal.turn.terminal.core.scopes := by
  obtain ⟨result, through, same⟩ := turn_through terminal
  have guardedReady : Run.Guarded 0 terminal.ready.core.scopes := by
    rw [core_ready]
    exact guarded
  rw [same]
  exact through.keep (fun core => Run.Guarded 0 core.scopes)
    (fun doing _ => guarded_deed doing.deed) guardedReady

/-- The terminals at whose prompts turns are taken, in a dialog of at most `budget` lines. -/
def turnsWithin : Nat → Terminal → List Terminal
  | 0, _ => []
  | budget + 1, terminal =>
    terminal ::
      match terminal.turn with
      | .next after => turnsWithin budget after
      | .last _ _ => []

def turns (terminal : Terminal) : List Terminal :=
  turnsWithin (terminal.machine.console.input.length + 1) (terminal.write greeting)

def readers (terminal : Terminal) : List Reader :=
  terminal.turns.flatMap turnReaders

end Terminal

/-! ### What ends a dialog -/

def Failure.isUnfinished : Failure → Bool
  | .stopped .unfinished => true
  | _ => false

def Doing.finishes (doing : Doing) : Bool :=
  match doing.deed with
  | .feed text =>
    !decide (Closes text) ||
      !(doing.terminal.machine.runSource (doing.terminal.pending ++ text)).1.any Failure.isUnfinished
  | .reset | .forget | .quit | .record _ => true

/-- A deed whose program comes to an end does not end the dialog unless it is to do so. -/
theorem Doing.quit_of_escaping {doing : Doing} {escape : Escape} {left : Terminal}
    (finishes : doing.finishes = true) (escapes : doing.result = (.error escape, left))
    (final : escape.isPassing = false) : doing.deed = .quit := by
  obtain ⟨terminal, deed⟩ := doing
  cases deed with
  | feed text =>
      have escaped : (Dialog.feed text).run.run terminal = (.error escape, left) := escapes
      rcases Dialog.run_feed_cases text terminal with ⟨_, ran⟩ | ⟨front, _, ran⟩ | ⟨closes, _⟩
      · rw [ran] at escaped
        cases escaped
      · rw [ran] at escaped
        cases escaped
      · obtain ⟨stays, unfinished⟩ := Dialog.escape_closing closes escaped
        cases escape with
        | quit => exact absurd rfl stays
        | unfinished => simp [Doing.finishes, closes, unfinished rfl, Failure.isUnfinished] at finishes
        | interrupt => cases final
        | fault cause => cases final
        | path cause => cases final
  | reset => cases escapes
  | forget => cases escapes
  | record line => cases escapes
  | quit => rfl

end

namespace Terminal

def IsQuit (line : String) : Prop :=
  ∃ words arguments, Told.ofTyped line = .command words ∧
    Command.ofLine? words = some (.quit, arguments)

section

variable [Limits]

theorem isQuit_of_mem {line : String} {terminal : Terminal} {doing : Doing}
    (member : doing ∈ terminal.doingsOfTyped line) (quits : doing.deed = .quit) : IsQuit line := by
  rw [doingsOfTyped] at member
  rcases List.mem_append.mp member with member | member
  · cases told : Told.ofTyped line with
    | text text =>
        rw [told] at member
        rw [List.mem_singleton.mp member] at quits
        cases quits
    | command words =>
        rw [told] at member
        obtain ⟨⟨command, arguments⟩, known, has⟩ := Deed.isOf_of_mem_doingsOf member
        rw [quits] at has
        have isQuit : command = .quit := of_decide_eq_true has
        subst isQuit
        exact ⟨words, arguments, told, known⟩
  · split at member
    · split at member
      · cases member
      · rw [List.mem_singleton.mp member] at quits
        cases quits
    · cases member

theorem isQuit_of_escape {line : String} {terminal left : Terminal} {escape : Escape}
    (finishes : ∀ doing ∈ terminal.doingsOfTyped line, doing.finishes = true)
    (ran : (takeLine line).run.run terminal = (.error escape, left))
    (final : escape.isPassing = false) : IsQuit line := by
  have through := takeLine_through line terminal
  rw [ran] at through
  obtain ⟨doing, member, middle, escapes⟩ := through.exists_escaping final
  have quits := Doing.quit_of_escaping (finishes doing member) escapes final
  exact isQuit_of_mem member quits

theorem run_takeLine_quit {line : String} (quits : IsQuit line) (terminal : Terminal) :
    (takeLine line).run.run terminal = (.error .quit, terminal.said "Goodbye!") := by
  obtain ⟨words, arguments, told, known⟩ := quits
  have ran : (Told.ofTyped line).act.run.run terminal = (.error .quit, terminal.said "Goodbye!") := by
    rw [told, Told.act, Dialog.command_of_ofLine? known]
    rfl
  rw [takeLine_eq, Run.run_bind_error ran]

/-- Of all escapes only two end the dialog, and a program that ends brings about neither. -/
theorem isQuit_of_settled {line : String} {terminal last : Terminal} {ending : DialogEnd}
    (finishes : ∀ doing ∈ terminal.doingsOfTyped line, doing.finishes = true)
    (ends : settle ((takeLine line).run.run terminal) = .last ending last) : IsQuit line := by
  cases ran : (takeLine line).run.run terminal with
  | mk ended left =>
      rw [ran] at ends
      cases ended with
      | ok _ => cases ends
      | error escape =>
          cases escape with
          | quit => exact isQuit_of_escape finishes ran rfl
          | unfinished => exact isQuit_of_escape finishes ran rfl
          | interrupt => cases ends
          | fault cause => cases ends
          | path cause => cases ends

/-- Only a command to quit ends the dialog before the input is at its end. -/
theorem turn_last {terminal last : Terminal} {ending : DialogEnd}
    (finishes : ∀ doing ∈ terminal.turnDoings, doing.finishes = true)
    (ends : terminal.turn = .last ending last) :
    ending = .quit ∧ (∃ front, last.machine.console.output = front ++ Content.plain "Goodbye!\n") ∧
      (last.machine.console.input = [] ∨ ∃ line, terminal.line? = some line ∧ IsQuit line) := by
  rw [turnDoings] at finishes
  cases asks : terminal.prompt? with
  | none =>
      simp only [turn, asks] at ends
      cases ends
  | some shown =>
      cases input : terminal.machine.console.input with
      | nil =>
          simp only [turn, asks, input] at ends
          cases ends
          exact ⟨rfl, ⟨_, rfl⟩, .inl input⟩
      | cons first rest =>
          simp only [turn, asks, input] at ends
          cases first with
          | none => cases ends
          | some line =>
              have typed : terminal.line? = some line := by
                rw [line?, asks, input]
                rfl
              rw [typed] at finishes
              have isQuit := isQuit_of_settled finishes ends
              simp only [run_takeLine_quit isQuit] at ends
              cases ends
              exact ⟨rfl, ⟨_, rfl⟩, .inr ⟨line, typed, isQuit⟩⟩

/-! ### Whole dialogs -/

/-- The prompt cannot be shown: no entry is open, and the working folder is gone. -/
def isAdrift (terminal : Terminal) : Bool :=
  !terminal.continued && terminal.files.whereabouts?.isNone

omit [Limits] in
theorem isNone_prompt? (terminal : Terminal) : terminal.prompt?.isNone = terminal.isAdrift := by
  rw [prompt?, isAdrift]
  cases terminal.continued with
  | true => rfl
  | false => simp

theorem input_shorter {terminal after : Terminal} (guarded : Run.Guarded 0 terminal.core.scopes)
    (housed : terminal.isAdrift = false) (goes : terminal.turn = .next after) :
    after.machine.console.input.length < terminal.machine.console.input.length := by
  rw [← isNone_prompt?, Option.isNone_eq_false_iff, Option.isSome_iff_exists] at housed
  obtain ⟨shown, asks⟩ := housed
  have account := input_turn guarded
  simp only [goes, turnReaders, asks, List.filterMap_cons, Reader.line?] at account
  cases input : terminal.machine.console.input with
  | nil =>
      simp only [turn, asks, input] at goes
      cases goes
  | cons line rest =>
      rw [input] at account
      have lengths := congrArg List.length account
      simp only [List.head?_cons, List.cons_append, List.length_cons, List.length_append,
        Turn.terminal] at lengths
      simp only [List.length_cons]
      omega

/-- However long a dialog has gone on, the lines that are missing from the input are those that the
readers have found, one each and in order. -/
theorem input_talkWithin (budget : Nat) {terminal : Terminal}
    (guarded : Run.Guarded 0 terminal.core.scopes) :
    terminal.machine.console.input =
      ((turnsWithin budget terminal).flatMap turnReaders).filterMap Reader.line? ++
        (talkWithin budget terminal).2.machine.console.input := by
  induction budget generalizing terminal with
  | zero => rfl
  | succ budget ih =>
      have account := input_turn guarded
      rw [talkWithin_succ, turnsWithin, List.flatMap_cons, List.filterMap_append, List.append_assoc]
      cases turned : terminal.turn with
      | last ending last =>
          rw [turned] at account
          exact account
      | next after =>
          have kept := guarded_turn guarded
          rw [turned, Turn.terminal] at account kept
          rw [ih kept] at account
          exact account

/-- With a budget above the number of lines, and the working folder there at all prompts, the dialog
comes to a last turn. -/
theorem talkWithin_last {budget : Nat} {terminal : Terminal}
    (guarded : Run.Guarded 0 terminal.core.scopes)
    (housed : ∀ found ∈ turnsWithin budget terminal, found.isAdrift = false)
    (enough : terminal.machine.console.input.length < budget) :
    ∃ final ∈ turnsWithin budget terminal, ∃ ending last, final.turn = .last ending last ∧
      talkWithin budget terminal = (ending, last) := by
  induction budget generalizing terminal with
  | zero => omega
  | succ budget ih =>
      rw [turnsWithin] at housed ⊢
      rw [talkWithin_succ]
      obtain ⟨housedNow, housedLater⟩ := List.forall_mem_cons.mp housed
      cases turned : terminal.turn with
      | last ending last => exact ⟨terminal, List.mem_cons_self, ending, last, turned, rfl⟩
      | next after =>
          -- The prompt has taken a line, so one less of the budget is still above what is left.
          have shorter := input_shorter guarded housedNow turned
          have kept := guarded_turn guarded
          rw [turned] at kept housedLater
          rw [Turn.terminal] at kept
          obtain ⟨final, member, ending, last, ends, talked⟩ := ih kept housedLater (by omega)
          exact ⟨final, List.mem_cons_of_mem terminal member, ending, last, ends, talked⟩

/-- A dialog that comes to a prompt without the working folder does not end. -/
theorem talkWithin_adrift {within : Nat} {terminal found : Terminal}
    (member : found ∈ turnsWithin within terminal) (adrift : found.isAdrift = true) (budget : Nat) :
    (talkWithin budget terminal).1 = .unfinished := by
  induction within generalizing terminal budget with
  | zero => cases member
  | succ within ih =>
      rw [turnsWithin] at member
      cases member with
      | head =>
          rw [← isNone_prompt?, Option.isNone_iff_eq_none] at adrift
          obtain ⟨text, talked⟩ := talkWithin_unprompted adrift budget
          rw [talked]
      | tail _ later =>
          cases budget with
          | zero => rfl
          | succ budget =>
              rw [talkWithin_succ]
              cases turned : terminal.turn with
              | last ending last =>
                  rw [turned] at later
                  cases later
              | next after =>
                  rw [turned] at later
                  exact ih later budget

/-- A dialog whose programs come to an end, and whose working folder is there whenever a prompt shows
it, is ended by a command to quit or by the end of the input, with a farewell and in no other way; a
line that no one has taken is left only behind a command to quit. If the working folder is missing at
a prompt that shows it, the dialog goes on for ever. In either case the lines that were taken off the
input are those that the prompts and the calls have found, one each and in order. -/
theorem talk_ends {terminal : Terminal} (reachable : terminal.Reachable) (world : World)
    (finishes : ∀ found ∈ (terminal.inWorld world).turns, ∀ doing ∈ found.turnDoings,
      doing.finishes = true) :
    let dialog := terminal.inWorld world
    let last := dialog.talk.2
    world.console.input = dialog.readers.filterMap Reader.line? ++ last.machine.console.input ∧
      ((∀ found ∈ dialog.turns, found.isAdrift = false) →
        dialog.talk.1 = .quit ∧
        (∃ front, last.machine.console.output = front ++ Content.plain "Goodbye!\n") ∧
        (last.machine.console.input ≠ [] → ∃ final ∈ dialog.turns,
          final.turn = .last .quit last ∧ ∃ line, final.line? = some line ∧ IsQuit line)) ∧
      ((∃ found ∈ dialog.turns, found.isAdrift = true) →
        ∀ budget, (talkWithin budget (dialog.write greeting)).1 = .unfinished) := by
  intro dialog last
  have guarded : Run.Guarded 0 (dialog.write greeting).core.scopes := reachable.guarded
  refine ⟨input_talkWithin _ guarded, ?_, ?_⟩
  · intro housed
    obtain ⟨final, member, ending, left, ends, talked⟩ :=
      talkWithin_last guarded housed (Nat.lt_succ_self _)
    have isLast : last = left := congrArg Prod.snd talked
    obtain ⟨rfl, farewell, leftover⟩ := turn_last (finishes final member) ends
    rw [isLast]
    exact ⟨congrArg Prod.fst talked, farewell,
      fun unread => ⟨final, member, ends, leftover.resolve_left unread⟩⟩
  · rintro ⟨found, member, adrift⟩ budget
    exact talkWithin_adrift member adrift budget

end

/-- The second line is read by a call, the third is an interrupt and the last is left. -/
theorem talk_ends_quit :
    let lines := [some "printline(inputline())", some "x", none, some ":quit"]
    let world : World := ⟨{ input := lines ++ [some "y"] }, bare.files, bare.programEnd⟩
    let found := bare.inWorld world
    bare.Reachable ∧ (∀ turn ∈ found.turns, ∀ doing ∈ turn.turnDoings, doing.finishes = true) ∧
      (∀ turn ∈ found.turns, turn.isAdrift = false) ∧
      ∃ last, found.talk = (.quit, last) ∧
        (∃ front, last.machine.console.output = front ++ Content.plain "Goodbye!\n") ∧
        found.readers.filterMap Reader.line? = lines ∧
        last.machine.console.input = [some "y"] ∧
        ∃ final ∈ found.turns, final.turn = .last .quit last ∧
          ∃ line, final.line? = some line ∧ IsQuit line := by
  intro lines world found
  have reachable : bare.Reachable := ⟨_, _, [], rfl⟩
  have finishes : ∀ turn ∈ found.turns, ∀ doing ∈ turn.turnDoings, doing.finishes = true := by
    decide +kernel
  have housed : ∀ turn ∈ found.turns, turn.isAdrift = false := by decide +kernel
  obtain ⟨account, ending, _⟩ := talk_ends reachable world finishes
  obtain ⟨quits, farewell, unread⟩ := ending housed
  have left : found.talk.2.machine.console.input = [some "y"] := by decide +kernel
  rw [left] at account unread
  have taken : found.readers.filterMap Reader.line? = lines := (List.append_cancel_right account).symm
  exact ⟨reachable, finishes, housed, found.talk.2, Prod.ext quits rfl, farewell, taken, left,
    unread (List.cons_ne_nil _ _)⟩

/-- The program that is to remove a package is given the working folder and removes that. -/
theorem talk_endless_without_folder :
    let files : FileTree := ⟨.folder [("w", .folder [("packages", .folder [])])], ["w"]⟩
    let removing : ProgramEnds := fun _ found => (.success, ⟨.folder [], found.here⟩)
    let world : World := ⟨{ input := [some ":uninstall ..", some ":quit"] }, files, removing⟩
    let dialog := bare.inWorld world
    bare.Reachable ∧ (∀ found ∈ dialog.turns, ∀ doing ∈ found.turnDoings, doing.finishes = true) ∧
      dialog.talk.2.started = #[⟨["rmdir", "/s", "/q", "packages\\.."], none⟩] ∧
      ∀ budget, (talkWithin budget (dialog.write greeting)).1 = .unfinished := by
  intro files removing world dialog
  have reachable : bare.Reachable := ⟨_, _, [], rfl⟩
  have adrift : ∃ found ∈ dialog.turns, found.isAdrift = true := by decide +kernel
  obtain ⟨found, member, isAdrift⟩ := adrift
  exact ⟨reachable, by decide +kernel, by decide +kernel, talkWithin_adrift member isAdrift⟩

end Terminal

end IndentScript
