import IndentScript.Proofs.TerminalSessions

/-!
Turns of the dialog. At a prompt the terminal takes the next line of the input, and behind all that
can happen then the dialog is at another prompt or at its end. The deeds of a turn are those of its
line. A turn whose prompt cannot be shown takes no line and does nothing but report that.
-/

namespace IndentScript

namespace Terminal

inductive Turn where
  | next (terminal : Terminal)
  | last (ending : DialogEnd) (terminal : Terminal)

/-- The terminal when it has shown its prompt, if it can, and the next line is taken off the input. -/
def ready (terminal : Terminal) : Terminal :=
  match terminal.prompt? with
  | some shown => (terminal.write shown).reading terminal.machine.console.input.tail
  | none => terminal

theorem ready_of_prompt {terminal : Terminal} {shown : String} (asks : terminal.prompt? = some shown) :
    terminal.ready = (terminal.write shown).reading terminal.machine.console.input.tail := by
  rw [ready, asks]

/-- A prompt touches nothing of the core but the input. -/
theorem core_ready (terminal : Terminal) :
    terminal.ready.core = { terminal.core with input := terminal.ready.machine.console.input } := by
  unfold ready
  split
  · rfl
  · rfl

def settle : Except Escape Unit × Terminal → Turn
  | (.ok (), left) => .next left
  | (.error .quit, left) => .last .quit left
  | (.error .unfinished, left) => .last .unfinished left
  | (.error .interrupt, left) => .next (left.write interruptText)
  | (.error (.fault cause), left) => .next (left.write (faultText cause.message))
  | (.error (.path cause), left) => .next (left.write (faultText cause.message))

variable [Limits]

def turn (terminal : Terminal) : Turn :=
  match terminal.prompt?, terminal.machine.console.input with
  | none, _ => .next (terminal.write (faultText FileTree.goneText))
  | some shown, [] => .last .quit ((terminal.write shown).write "Goodbye!\n")
  | some _, none :: _ => .next (terminal.ready.write interruptText)
  | some _, some line :: _ => settle ((takeLine line).run.run terminal.ready)

def Turn.terminal : Turn → Terminal
  | .next terminal | .last _ terminal => terminal

def Turn.goOn (budget : Nat) : Turn → DialogEnd × Terminal
  | .next terminal => talkWithin budget terminal
  | .last ending terminal => (ending, terminal)

theorem goOn_settle (budget : Nat) (taken : Except Escape Unit × Terminal) :
    goOn budget taken = (settle taken).goOn budget := by
  obtain ⟨ended, left⟩ := taken
  cases ended with
  | ok _ => rfl
  | error escape => cases escape <;> rfl

theorem talkWithin_succ (budget : Nat) (terminal : Terminal) :
    talkWithin (budget + 1) terminal = terminal.turn.goOn budget := by
  cases asks : terminal.prompt? with
  | none =>
      simp only [talkWithin, turn, asks]
      rfl
  | some shown =>
      cases input : terminal.machine.console.input with
      | nil =>
          have asked : (terminal.write shown).machine.console.input = [] := input
          simp only [talkWithin, turn, asks, asked, input]
          rfl
      | cons line rest =>
          cases line with
          | none =>
              have asked : (terminal.write shown).machine.console.input = none :: rest := input
              simp only [talkWithin, turn, asks, asked, input, ready]
              rfl
          | some text =>
              rw [talkWithin_line asks input, goOn_settle]
              simp only [turn, ready, asks, input, List.tail_cons]

/-- The dialog takes turns at these terminals, in order, and is then at the last one. -/
inductive Led : Terminal → List Terminal → Terminal → Prop where
  | start {terminal : Terminal} : Led terminal [] terminal
  | turn {terminal middle last : Terminal} {turns : List Terminal} :
    terminal.turn = .next middle → Led middle turns last → Led terminal (terminal :: turns) last

def line? (terminal : Terminal) : Option String :=
  match terminal.prompt? with
  | some _ => terminal.machine.console.input.head?.join
  | none => none

def turnDoings (terminal : Terminal) : List Doing :=
  match terminal.line? with
  | some line => terminal.ready.doingsOfTyped line
  | none => []

omit [Limits] in
theorem settle_of_ok {taken : Except Escape Unit × Terminal} (ok : taken.1.toBool = true) :
    settle taken = .next taken.2 := by
  obtain ⟨ended, left⟩ := taken
  cases ended with
  | ok _ => rfl
  | error escape => cases ok

omit [Limits] in
theorem settle_core (taken : Except Escape Unit × Terminal) :
    (settle taken).terminal.core = taken.2.core := by
  obtain ⟨ended, left⟩ := taken
  cases ended with
  | ok _ => rfl
  | error escape => cases escape <;> rfl

/-- The deeds of the line are all that touches the core in a turn. -/
theorem turn_through (terminal : Terminal) : ∃ result,
    Through terminal.ready terminal.turnDoings result ∧ terminal.turn.terminal.core = result.2.core := by
  have idle : Through terminal.ready [] (.ok (), terminal.ready) :=
    .of_quiet (Dialog.Quiet.pure ())
  rw [turn, turnDoings, line?]
  cases asks : terminal.prompt? with
  | none =>
      rw [ready, asks] at idle
      rw [ready, asks]
      exact ⟨_, idle, rfl⟩
  | some shown =>
      cases input : terminal.machine.console.input with
      | nil =>
          have same : terminal.core = terminal.ready.core := by
            rw [ready_of_prompt asks, core, input]
            rfl
          exact ⟨_, idle, same⟩
      | cons line rest =>
          cases line with
          | none => exact ⟨_, idle, rfl⟩
          | some text => exact ⟨_, takeLine_through text terminal.ready, settle_core _⟩

omit [Limits] in
/-- A line is taken behind a prompt. -/
theorem exists_of_line? {terminal : Terminal} {line : String} (typed : terminal.line? = some line) :
    ∃ shown rest, terminal.prompt? = some shown ∧
      terminal.machine.console.input = some line :: rest := by
  rw [line?] at typed
  cases asks : terminal.prompt? with
  | none =>
      rw [asks] at typed
      cases typed
  | some shown =>
      cases input : terminal.machine.console.input with
      | nil =>
          rw [asks, input] at typed
          cases typed
      | cons first rest =>
          rw [asks, input] at typed
          exact ⟨shown, rest, rfl, congrArg (· :: rest) typed⟩

/-- The dialog goes on behind a line that did not escape. -/
theorem turn_of_ok {terminal after : Terminal} {line : String} (typed : terminal.line? = some line)
    (ran : (Told.ofTyped line).act.run.run terminal.ready = (.ok (), after)) :
    ∃ next, terminal.turn = .next next ∧ next.machine = after.machine := by
  obtain ⟨shown, rest, asks, input⟩ := exists_of_line? typed
  rw [turn, asks, input]
  dsimp only
  rw [takeLine_eq, Run.run_bind_ok ran, Run.run_get_bind]
  cases after.continued with
  | true => exact ⟨after, rfl, rfl⟩
  | false => exact ⟨{ after with history := after.history.push (Text.trim line) }, rfl, rfl⟩

end Terminal

end IndentScript
