import IndentScript.Launch
import IndentScript.Proofs.CommandFrames
import IndentScript.Proofs.RunRules

/-!
Running the text of a file from a terminal. The text is taken like one that belongs to an entry. So it
is run as the launcher runs it where no entry is open and the text does not end in a backslash.
Otherwise it is not: an open entry is closed by the text and run in front of it, and a text that ends in
a backslash is kept, not run, though the terminal says that it was.
-/

namespace IndentScript

section

variable [Limits]

namespace Failure

/-- What a terminal writes about the failure of a text that it has run, unless that escapes. -/
def notice : Failure → Except Escape Content
  | .stopped .interrupt => .error .interrupt
  | .stopped .unfinished => .error .unfinished
  | failure =>
    match failure.message with
    | .ok message =>
      .ok (.plain (if failure.isSyntactic then "Syntax Error: " else "Runtime Error: ") ++ message
        ++ .plain "\n")
    | .error fault => .error (.fault fault)

def ending : Option Failure → Except Escape Content
  | none => .ok (.plain "")
  | some failure => failure.notice

def loadNotice (name : String) (failure : Option Failure) : Content :=
  match ending failure with
  | .ok text => text ++ .plain ("Loaded and executed " ++ name ++ "\n")
  | .error (.fault cause) => .plain ("Load error: " ++ cause.message ++ "\n")
  | .error _ => .plain ""

def loadEnd (failure : Option Failure) : Except Escape Unit :=
  match ending failure with
  | .ok _ | .error (.fault _) => .ok ()
  | .error escape => .error escape

/-- What escapes is a fault of the notice itself, or an interrupt, or the program has no end. -/
theorem ending_eq_error {failure : Option Failure} {escape : Escape}
    (escaped : ending failure = .error escape) :
    (∃ cause, escape = .fault cause) ∨ escape = .interrupt ∨ escape = .unfinished := by
  cases failure with
  | none => cases escaped
  | some failure =>
      rw [ending] at escaped
      cases failure with
      | lexical fault => cases escaped
      | syntactic failure => cases escaped
      | stopped stop =>
          cases stop with
          | interrupt =>
              cases escaped
              exact .inr (.inl rfl)
          | unfinished =>
              cases escaped
              exact .inr (.inr rfl)
          | result value =>
              simp only [notice, message, Stop.message] at escaped
              cases shown : value.shown with
              | ok text =>
                  rw [shown] at escaped
                  cases escaped
              | error fault =>
                  rw [shown] at escaped
                  cases escaped
                  exact .inl ⟨fault, rfl⟩
          | _ => cases escaped

end Failure

namespace Dialog

def tell : Except Escape Content → Dialog Unit
  | .ok text => write text
  | .error escape => throw escape

theorem report_eq_tell (failure : Failure) : report failure = tell failure.notice := by
  cases failure with
  | lexical fault => rfl
  | syntactic failure => rfl
  | stopped stop =>
      cases stop with
      | result value =>
          simp only [report, Failure.notice, Failure.message, Stop.message]
          cases value.shown with
          | ok text => rfl
          | error fault => rfl
      | _ => rfl

theorem run_conclude (code : String) (failure : Option Failure) (terminal : Terminal) :
    (conclude code failure).run.run terminal =
      (do
        tell (Failure.ending failure)
        record code).run.run terminal := by
  cases failure with
  | none =>
      change _ = (record code).run.run (terminal.withConsole (·.write (.plain "")))
      rw [Terminal.withConsole, Console.write_empty]
      rfl
  | some failure => rw [conclude, report_eq_tell, Failure.ending]

/-- A text that closes an entry is run behind the kept text, and its end is told. -/
theorem run_feed_ending {text : String} (closes : Closes text) (terminal : Terminal) :
    (feed text).run.run terminal =
      (do
        tell (Failure.ending (terminal.machine.runSource (terminal.pending ++ text)).1)
        record (terminal.pending ++ text)).run.run
          { terminal.closed with
            machine := (terminal.machine.runSource (terminal.pending ++ text)).2 } := by
  have source : terminal.closed.machine.runSource (terminal.pending ++ text) =
      ((terminal.machine.runSource (terminal.pending ++ text)).1,
        (terminal.machine.runSource (terminal.pending ++ text)).2) := rfl
  rw [run_feed_closing closes.1 closes.2, run_runEntry source, run_conclude]

omit [Limits] in
theorem run_reportingEscape {front : String} {action : Dialog Unit} {ended : Except Escape Unit}
    {terminal left : Terminal} (ran : action.run.run terminal = (ended, left)) :
    (∀ cause, ended = .error (.fault cause) → (reportingEscape front action).run.run terminal =
      (say (front ++ cause.message)).run.run left) ∧
    ((∀ cause, ended ≠ .error (.fault cause)) → (∀ cause, ended ≠ .error (.path cause)) →
      (reportingEscape front action).run.run terminal = (ended, left)) := by
  rw [reportingEscape, ExceptT.run_mk]
  simp only [StateT.run] at ran ⊢
  rw [ran]
  constructor
  · rintro cause rfl
    rfl
  · intro noFault noPath
    cases ended with
    | ok _ => rfl
    | error escape =>
        cases escape with
        | fault cause => exact absurd rfl (noFault cause)
        | path cause => exact absurd rfl (noPath cause)
        | _ => rfl

/-- The text of a file that closes an entry is run behind the kept text of the entry. -/
theorem run_load_closing {name code : String} {terminal : Terminal}
    (read : terminal.files.readText name = .ok code) (closes : Closes code) (others : List String) :
    let ran := terminal.machine.runSource (terminal.pending ++ code)
    let result := (load (name :: others)).run.run terminal
    result.1 = Failure.loadEnd ran.1 ∧
      result.2.machine =
        { ran.2 with console := ran.2.console.write (Failure.loadNotice name ran.1) } ∧
      result.2.pending = "" ∧ result.2.continued = false := by
  intro ran result
  have fed := run_feed_ending closes terminal
  have loaded : result = (reportingEscape "Load error: " do
      feed code
      say ("Loaded and executed " ++ name)).run.run terminal := by
    change (load (name :: others)).run.run terminal = _
    rw [load, Run.run_get_bind, read]
  rw [loaded, Failure.loadEnd, Failure.loadNotice]
  -- a failure is told as text and loading goes on; only what cannot be told escapes
  cases ended : Failure.ending ran.1 with
  | ok text =>
      rw [ended] at fed
      have said := Run.run_bind_ok fed fun _ => say ("Loaded and executed " ++ name)
      rw [(run_reportingEscape said).2 (by simp) (by simp)]
      refine ⟨rfl, ?_, rfl, rfl⟩
      rw [← Console.write_write]
      rfl
  | error escape =>
      rw [ended] at fed
      have escaped := Run.run_bind_error fed fun _ => say ("Loaded and executed " ++ name)
      rcases Failure.ending_eq_error ended with ⟨cause, rfl⟩ | rfl | rfl
      · rw [(run_reportingEscape escaped).1 cause rfl]
        exact ⟨rfl, rfl, rfl, rfl⟩
      · rw [(run_reportingEscape escaped).2 (by simp) (by simp)]
        dsimp only
        rw [Console.write_empty]
        exact ⟨rfl, rfl, rfl, rfl⟩
      · rw [(run_reportingEscape escaped).2 (by simp) (by simp)]
        dsimp only
        rw [Console.write_empty]
        exact ⟨rfl, rfl, rfl, rfl⟩

/-- What the text of a file leaves that closes no entry: it is kept without its backslash, or there is
nothing to keep. The terminal says the same as of one that was run. -/
theorem run_load_opening {name code : String} {terminal left : Terminal}
    (read : terminal.files.readText name = .ok code)
    (fed : (feed code).run.run terminal = (.ok (), left)) (others : List String) :
    (load (name :: others)).run.run terminal =
      (.ok (), left.said ("Loaded and executed " ++ name)) := by
  have loaded : (load (name :: others)).run.run terminal = (reportingEscape "Load error: " do
      feed code
      say ("Loaded and executed " ++ name)).run.run terminal := by
    rw [load, Run.run_get_bind, read]
  have said := Run.run_bind_ok fed fun _ => say ("Loaded and executed " ++ name)
  rw [loaded, (run_reportingEscape said).2 (by simp) (by simp)]
  rfl

end Dialog

theorem Machine.runSource_empty (machine : Machine) : machine.runSource "" = (none, machine) := by
  have compiled : compile "" = .ok ⟨[]⟩ := by
    refine compile_eq_ok_iff.mpr ⟨[Token.final 1], ?_, rfl⟩
    exact tokenize_eq_ok_iff.mpr ⟨by decide +kernel, by decide +kernel⟩
  rw [runSource, compiled]
  rfl

end

namespace Terminal

/-- Whatever a terminal was told before and whatever is around it, the text of a file that is neither
empty nor ends in a backslash is run behind the kept text of the entry, which is closed. A text that
ends in a backslash is kept, and the terminal says that it was executed. So where no entry is open and
the text does not end in a backslash, the machine and the open entry are what running the text leaves,
with the notices behind the output; the launcher runs the same text on a machine of its own. -/
theorem load_runs_file [Limits] {terminal : Terminal} (reachable : terminal.Reachable) (world : World)
    {line name code : String} {others : List String}
    (isLoad : Command.ofLine? line = some (.load, name :: others))
    (read : world.files.readText name = .ok code) :
    let found := terminal.inWorld world
    let result := (Dialog.command line).run.run found
    (Closes code →
      let ran := found.machine.runSource (found.pending ++ code)
      result.1 = Failure.loadEnd ran.1 ∧
        result.2.machine =
          { ran.2 with console := ran.2.console.write (Failure.loadNotice name ran.1) } ∧
        result.2.pending = "" ∧ result.2.continued = false) ∧
    (∀ front, code = front ++ "\\" →
      result = (.ok (), (found.opened front).said ("Loaded and executed " ++ name))) ∧
    (found.continued = false → code.toList.getLast? ≠ some '\\' →
      let ran := found.machine.runSource code
      result.1 = Failure.loadEnd ran.1 ∧
        result.2.machine =
          { ran.2 with console := ran.2.console.write (Failure.loadNotice name ran.1) } ∧
        result.2.pending = found.pending ∧ result.2.continued = found.continued) ∧
    ∀ console, Launch.launch world.files.readText [name] console =
      let ran := (Machine.new console).runSource code
      (ran.1.map .failed, ran.2.console) := by
  intro found result
  have performed : result = (Dialog.load (name :: others)).run.run found := by
    change (Dialog.command line).run.run found = _
    rw [Dialog.command_of_ofLine? isLoad]
    rfl
  have readHere : found.files.readText name = .ok code := read
  have closing := fun closes => Dialog.run_load_closing readHere closes others
  rw [← performed] at closing
  refine ⟨closing, ?_, ?_, ?_⟩
  · rintro front rfl
    rw [performed]
    exact Dialog.run_load_opening readHere (Dialog.run_feed_backslash front found) others
  · intro closed noBackslash
    have idle : found.pending = "" := reachable.idle.2 closed
    by_cases empty : code = ""
    · subst empty
      have fed : (Dialog.feed "").run.run found = (.ok (), found) := rfl
      rw [performed, Dialog.run_load_opening readHere fed others, Machine.runSource_empty]
      exact ⟨rfl, rfl, rfl, rfl⟩
    · have ends := closing ⟨empty, noBackslash⟩
      rw [idle, String.empty_append] at ends
      rw [idle, closed]
      exact ends
  · intro console
    simp only [Launch.launch, read]

def worldOfFile (name code : String) : World :=
  ⟨{}, ⟨.folder [(name, .file (Text.Utf8.encode code))], []⟩, bare.programEnd⟩

/-- The text of the file reads a variable that the user has set. -/
theorem load_runs_file_variable :
    let world := worldOfFile "a.ff" "printline(x)"
    let terminal := bare.afterSession [(world, .told (.text "local x = 7"))]
    let ran := (terminal.inWorld world).machine.runSource "printline(x)"
    let result := (Dialog.command "load a.ff").run.run (terminal.inWorld world)
    terminal.Reachable ∧ Command.ofLine? "load a.ff" = some (.load, ["a.ff"]) ∧
      world.files.readText "a.ff" = .ok "printline(x)" ∧
      ran.2.console.output = .plain "7 \n" ∧ result.2.machine =
        { ran.2 with console := ran.2.console.write (Failure.loadNotice "a.ff" ran.1) } := by
  intro world terminal ran result
  have reachable : terminal.Reachable := ⟨_, _, _, rfl⟩
  have isLoad : Command.ofLine? "load a.ff" = some (.load, ["a.ff"]) := by decide +kernel
  have found : (world.files.readText "a.ff").toOption = some "printline(x)" := by decide +kernel
  have read : world.files.readText "a.ff" = .ok "printline(x)" := by
    cases ended : world.files.readText "a.ff" with
    | ok code =>
        rw [ended] at found
        cases found
        rfl
    | error fault =>
        rw [ended] at found
        cases found
  have closed : (terminal.inWorld world).continued = false := by decide +kernel
  obtain ⟨_, _, loaded, _⟩ := load_runs_file reachable world isLoad read
  exact ⟨reachable, isLoad, read, by decide +kernel, (loaded closed (by decide)).2.1⟩

/-- An entry is open when a file is loaded: the entry is run with the text of the file, and it is no
longer open. A text that ends in a backslash is not run. -/
theorem load_closes_entry :
    let world := worldOfFile "a.ff" "printline(1)"
    let terminal := bare.afterSession [(world, .told (.text "local x = 5\\"))]
    let left := ((Dialog.command "load a.ff").run.run (terminal.inWorld world)).2
    let kept := ((Dialog.command "load a.ff").run.run
      (bare.inWorld (worldOfFile "a.ff" "printline(1)\\"))).2
    terminal.Reachable ∧ terminal.continued = true ∧ terminal.pending = "local x = 5\n" ∧
      Entries.get? "x" terminal.machine.globals = none ∧
      left.continued = false ∧ left.pending = "" ∧
      (Entries.get? "x" left.machine.globals).bind Value.integer? = some 5 ∧
      kept.continued = true ∧
      kept.machine.console.output = .plain "Loaded and executed a.ff\n" := by
  refine ⟨⟨_, _, _, rfl⟩, ?_, ?_, ?_, ?_, ?_, ?_, ?_, ?_⟩
  · decide +kernel
  · decide +kernel
  · decide +kernel
  · decide +kernel
  · decide +kernel
  · decide +kernel
  · decide +kernel
  · decide +kernel

end Terminal

end IndentScript
