import IndentScript.Proofs.LoadedFiles
import IndentScript.Proofs.RunRules
import IndentScript.Proofs.ValueTexts

/-!
What becomes of the failures of entries. A terminal reports them as text and records the entry, with
one exception: a result outside of a function stops an entry, and the report of it is the text of the
value. Where the value has no text the report fails in its turn, and the entry is not recorded.
-/

namespace IndentScript

/-! ### Interrupts -/

namespace Run

/-- Where the input holds no interrupt, the run leaves such an input and is not interrupted. -/
def uninterrupted : Property := fun _ _ run machine =>
  (none : Option String) ∉ machine.console.input →
    (none : Option String) ∉ (run.after machine).console.input ∧
      run.outcome machine ≠ .error .interrupt

theorem uninterrupted_readLine (seen : Moment → Prop) (machine : Machine) :
    uninterrupted String seen readLine machine := by
  intro clean
  rw [after, outcome]
  cases input : machine.console.input with
  | nil =>
      rw [run_readLine_nil input]
      exact ⟨clean, by simp⟩
  | cons line rest =>
      rw [input] at clean
      cases line with
      | none => simp at clean
      | some text =>
          rw [run_readLine_some input]
          exact ⟨by simpa using clean, by simp⟩

variable [Limits]

theorem uninterrupted_printLine (seen : Moment → Prop) (values : List Value) (machine : Machine) :
    uninterrupted Unit seen (printLine values) machine := by
  intro clean
  rw [after, outcome]
  rcases shows_or_error values with ⟨_, shows⟩ | ⟨_, _, _, _, _, rfl, shows, failed⟩
  · rw [run_printLine_of_shows shows]
    exact ⟨clean, by simp⟩
  · rw [run_printLine_of_error shows failed]
    exact ⟨clean, by simp⟩

theorem composes_uninterrupted (rounds : Nat) : uninterrupted.Composes rounds where
  more _ holds := holds
  steady steady clean := by
    rw [steady.input]
    exact ⟨clean, steady.uninterrupted⟩
  bind {_ _ _ first next machine} holds holdsNext clean := by
    have firstEnds := holds clean
    cases ran : first.run.run machine with
    | mk ended middle =>
        rw [after, outcome, ran] at firstEnds
        cases ended with
        | ok found =>
            have nextEnds := holdsNext found middle ran firstEnds.1
            rw [after, outcome] at nextEnds ⊢
            rwa [run_bind_ok ran]
        | error signal =>
            rw [after, outcome, run_bind_error ran]
            refine ⟨firstEnds.1, ?_⟩
            simpa using firstEnds.2
  inScope holds clean := holds clean
  round {_ entries body machine} holds clean := by
    obtain ⟨left, goesOn⟩ := holds clean
    rw [after, outcome_round, run_round]
    refine ⟨left, ?_⟩
    intro interrupted
    exact goesOn (loopEnd_eq_error interrupted).1
  returning {_ body machine} holds clean := by
    obtain ⟨left, goesOn⟩ := holds clean
    rw [after, outcome_returning, run_returning]
    refine ⟨left, ?_⟩
    intro interrupted
    exact goesOn (callEnd_eq_error interrupted)
  reading := uninterrupted_readLine _ _
  printing _ _ := uninterrupted_printLine _ _ _

end Run

theorem Machine.runSource_uninterrupted [Limits] {machine : Machine}
    (clean : (none : Option String) ∉ machine.console.input) (source : String) :
    (machine.runSource source).1 ≠ some (.stopped .interrupt) := by
  rw [runSource]
  cases compiled : compile source with
  | error failure =>
      rcases compile_eq_error compiled with ⟨_, _, rfl⟩ | ⟨_, _, _, _, rfl⟩
      · simp
      · simp
  | ok program =>
      intro interrupted
      obtain ⟨stop, stopped, same⟩ := Option.map_eq_some_iff.mp interrupted
      cases same
      have ends := (Run.composes_uninterrupted Run.roundLimit).work (machine.beginning program) clean
      exact ends.2 (runProgram_fst stopped)

/-! ### Reports -/

namespace Failure

variable [Limits]

theorem ending_result_ok {value : Value} (legible : value.Legible) :
    ∃ notice, ending (some (.stopped (.result value))) = .ok notice := by
  obtain ⟨content, shown⟩ := Value.exists_shown_iff.mpr legible
  simp [ending, notice, message, Stop.message, shown]

theorem ending_result_error {value : Value} (illegible : ¬value.Legible) :
    ∃ cause, value.shown = .error cause ∧
      ending (some (.stopped (.result value))) = .error (.fault cause) := by
  cases shown : value.shown with
  | ok content => exact absurd (Value.legible_of_shown shown) illegible
  | error cause =>
      refine ⟨cause, rfl, ?_⟩
      simp [ending, notice, message, Stop.message, shown]

/-- Only a result can fail to be reported. -/
theorem exists_ending_iff {failure : Option Failure}
    (uninterrupted : failure ≠ some (.stopped .interrupt)) :
    (∃ notice, ending failure = .ok notice) ↔ failure ≠ some (.stopped .unfinished) ∧
      ∀ value, failure = some (.stopped (.result value)) → value.Legible := by
  constructor
  · rintro ⟨notice, told⟩
    constructor
    · rintro rfl
      cases told
    · rintro value rfl
      by_contra illegible
      obtain ⟨cause, _, escapes⟩ := ending_result_error illegible
      rw [escapes] at told
      cases told
  · rintro ⟨finished, legible⟩
    rcases failure with _ | failure | failure | stop
    · exact ⟨_, rfl⟩
    · exact ⟨_, rfl⟩
    · exact ⟨_, rfl⟩
    · cases stop with
      | interrupt => exact absurd rfl uninterrupted
      | unfinished => exact absurd rfl finished
      | result value => exact ending_result_ok (legible value rfl)
      | _ => exact ⟨_, rfl⟩

end Failure

namespace Terminal

/-- Where the input holds no interrupt, a text that closes no entry is taken and nothing is run or
recorded. After one that closes an entry, no entry is open. The entry was not interrupted; unless it does
not finish, its end is told as text and its code is recorded once, but for one case: it was stopped by
a result that has no text. That fault escapes, nothing is told and the code is not recorded. -/
theorem feed_tells_failures [Limits] {terminal : Terminal}
    (clean : (none : Option String) ∉ terminal.machine.console.input) (text : String) :
    let fed := (Dialog.feed text).run.run terminal
    let code := terminal.pending ++ text
    let ran := terminal.machine.runSource code
    (¬Closes text → fed.1 = .ok () ∧ fed.2.machine = terminal.machine ∧
      fed.2.history = terminal.history) ∧
    (Closes text →
      fed.2.pending = "" ∧ fed.2.continued = false ∧ ran.1 ≠ some (.stopped .interrupt) ∧
      (fed.1 = .ok () ↔ ran.1 ≠ some (.stopped .unfinished) ∧
        ∀ value, ran.1 = some (.stopped (.result value)) → value.Legible) ∧
      (fed.1 = .ok () → ∃ notice, Failure.ending ran.1 = .ok notice ∧
        fed.2 = { terminal.closed with
          machine := ran.2.written notice, history := terminal.history.push code }) ∧
      ∀ value, ran.1 = some (.stopped (.result value)) → ¬value.Legible →
        ∃ cause, Value.Bars value.integers value.height Value.nestingLimit cause ∧
          fed = (.error (.fault cause), { terminal.closed with machine := ran.2 })) := by
  intro fed code ran
  constructor
  · intro opens
    rcases Dialog.run_feed_cases text terminal with ⟨_, same⟩ | ⟨front, _, same⟩ | ⟨closes, _⟩
    · simp [fed, same]
    · simp [fed, same, opened]
    · exact absurd closes opens
  · intro closes
    have entry : fed = _ := Dialog.run_feed_ending closes terminal
    have uninterrupted : ran.1 ≠ some (.stopped .interrupt) :=
      Machine.runSource_uninterrupted clean code
    have told := Failure.exists_ending_iff uninterrupted
    cases ended : Failure.ending ran.1 with
    | ok notice =>
        have whole : fed = (.ok (), { terminal.closed with
            machine := ran.2.written notice, history := terminal.history.push code }) := by
          rw [entry, ended]
          rfl
        refine ⟨?_, ?_, uninterrupted, ?_, ?_, ?_⟩
        · rw [whole]
          rfl
        · rw [whole]
          rfl
        · rw [whole, ← told]
          simp [ended]
        · intro _
          exact ⟨notice, rfl, congrArg Prod.snd whole⟩
        · intro value stopped illegible
          exact absurd ((told.mp ⟨notice, ended⟩).2 value stopped) illegible
    | error escape =>
        have whole : fed = (.error escape, { terminal.closed with machine := ran.2 }) := by
          rw [entry, ended]
          rfl
        refine ⟨?_, ?_, uninterrupted, ?_, ?_, ?_⟩
        · rw [whole]
          rfl
        · rw [whole]
          rfl
        · rw [whole, ← told]
          simp [ended]
        · rw [whole]
          intro returned
          cases returned
        · intro value stopped illegible
          obtain ⟨cause, shown, escapes⟩ := Failure.ending_result_error illegible
          rw [← stopped, ended] at escapes
          cases escapes
          exact ⟨cause, Value.bars_of_shown shown, whole⟩

/-- The entry was opened before, reads a line and stops with it as its result. -/
theorem feed_tells_failures_of_result :
    let terminal := (bare.opened "local x = inputline()").reading [some "a", some "b"]
    let fed := (Dialog.feed "return x").run.run terminal
    (none : Option String) ∉ terminal.machine.console.input ∧ Closes "return x" ∧
      fed.1 = .ok () ∧ fed.2.machine.console.output = .plain "Runtime Error: a\n" ∧
      fed.2.history = #["local x = inputline()\nreturn x"] ∧ fed.2.pending = "" ∧
      fed.2.continued = false := by
  intro terminal fed
  have evaluated : (none : Option String) ∉ terminal.machine.console.input ∧ Closes "return x" ∧
      fed.1.toBool = true ∧ fed.2.machine.console.output = .plain "Runtime Error: a\n" := by
    decide +kernel
  obtain ⟨clean, closes, returns, output⟩ := evaluated
  have returned : fed.1 = .ok () := by
    cases ended : fed.1 with
    | ok _ => rfl
    | error escape =>
        rw [ended] at returns
        cases returns
  obtain ⟨pending, continued, _, _, told, _⟩ := (feed_tells_failures clean "return x").2 closes
  obtain ⟨notice, _, left⟩ := told returned
  exact ⟨clean, closes, returned, output, congrArg Terminal.history left, pending, continued⟩

def hugeResult : String :=
  "func q(x):\n return x*x*x*x\nreturn q(q(q(q(q(q(100))))))"

/-- The result has no text: the fault escapes, and the entry is neither reported nor recorded. -/
theorem feed_hugeResult_escapes :
    let fed := (Dialog.feed hugeResult).run.run bare
    (none : Option String) ∉ bare.machine.console.input ∧ Closes hugeResult ∧
      fed.1.toBool = false ∧ fed.2.machine.console.output = .plain "" ∧ fed.2.history = #[] := by
  decide +kernel

end Terminal

end IndentScript
