import IndentScript.Machine.Session
import IndentScript.Proofs.Runs

/-!
What was written on a console has no effect on a run. With another text in front of what was written
before, the run ends in the same way, and leaves the same machine with that text in front. So a run
writes one text behind what is there, and that text does not depend on what is there.
-/

namespace IndentScript

namespace Machine

def behind (front : Content) (machine : Machine) : Machine :=
  { machine with console.output := front ++ machine.console.output }

def blank (machine : Machine) : Machine :=
  { machine with console.output := .plain "" }

theorem behind_blank (machine : Machine) : machine.blank.behind machine.console.output = machine := by
  rw [behind, blank, Content.append_empty]

end Machine

namespace Run

/-- The run takes no notice of what was written before it. -/
def Unaware {α : Type} (run : Run α) : Prop :=
  ∀ front machine, run.run.run (Machine.behind front machine) =
    (run.run.run machine).map id (Machine.behind front)

section

variable {α β : Type}

theorem Unaware.pure (found : α) : Unaware (Pure.pure found) :=
  fun _ _ => rfl

theorem Unaware.throw (signal : Stop) : Unaware (throw signal : Run α) :=
  fun _ _ => rfl

theorem Unaware.ofExcept (computed : Except Fault α) : Unaware (ofExcept computed) := by
  cases computed with
  | ok found => exact Unaware.pure found
  | error cause => exact Unaware.throw (.fault cause)

theorem Unaware.bind {first : Run α} {next : α → Run β} (unaware : Unaware first)
    (unawareNext : ∀ found, Unaware (next found)) : Unaware (first >>= next) := by
  intro front machine
  have shifted := unaware front machine
  cases ran : first.run.run machine with
  | mk ended middle =>
      rw [ran] at shifted
      cases ended with
      | ok found =>
          rw [run_bind_ok shifted, run_bind_ok ran]
          exact unawareNext found front middle
      | error signal =>
          rw [run_bind_error shifted, run_bind_error ran]
          rfl

theorem Unaware.discard {run : Run α} (unaware : Unaware run) : Unaware (discard run) :=
  unaware.bind fun _ => Unaware.pure _

theorem Unaware.mapM {step : α → Run β} (items : List α) (unaware : ∀ item, Unaware (step item)) :
    Unaware (items.mapM step) := by
  induction items with
  | nil => exact Unaware.pure []
  | cons item rest ih =>
      rw [List.mapM_cons]
      apply (unaware item).bind
      intro first
      exact ih.bind fun others => Unaware.pure _

theorem Unaware.forM {step : α → Run Unit} (items : List α) (unaware : ∀ item, Unaware (step item)) :
    Unaware (items.forM step) := by
  induction items with
  | nil => exact Unaware.pure ()
  | cons item rest ih => exact (unaware item).bind fun _ => ih

/-! ### The machine -/

theorem unaware_lookup (name : String) : Unaware (lookup name) := by
  intro front machine
  have same : (machine.behind front).scopes = machine.scopes := rfl
  rw [lookup, run_get_bind, run_get_bind, same]
  cases find? name machine.scopes with
  | some value => rfl
  | none => rfl

theorem unaware_lookupGlobal (name : String) : Unaware (lookupGlobal name) := by
  intro front machine
  have same : (machine.behind front).globals = machine.globals := rfl
  rw [lookupGlobal, run_get_bind, run_get_bind, same]
  cases Entries.get? name machine.globals with
  | some value => rfl
  | none => rfl

theorem unaware_assign (name : String) (value : Value) : Unaware (assign name value) :=
  fun _ _ => rfl

theorem unaware_newIdentity : Unaware newIdentity :=
  fun _ _ => rfl

theorem Unaware.inScope {body : Run α} (unaware : Unaware body) (entries : Entries Value) :
    Unaware (inScope entries body) := by
  intro front machine
  have shifted := unaware front { machine with scopes := entries :: machine.scopes }
  rw [run_inScope, run_inScope]
  exact congrArg (Prod.map id fun left : Machine => { left with scopes := left.scopes.drop 1 }) shifted

theorem unaware_write (text : Content) : Unaware (write text) := by
  intro front machine
  change (Except.ok (), { machine with
    console.output := front ++ machine.console.output ++ text }) = _
  rw [Content.append_assoc]
  rfl

theorem unaware_readLine : Unaware readLine := by
  intro front machine
  obtain ⟨scopes, ⟨input, output, clock⟩, nextIdentity⟩ := machine
  rcases input with _ | ⟨_ | text, rest⟩
  · rfl
  · rfl
  · rfl

theorem unaware_printLine [Limits] (values : List Value) : Unaware (printLine values) := by
  have written : Unaware (values.forM printValue) :=
    Unaware.forM values fun value => (Unaware.ofExcept _).bind fun text => unaware_write _
  exact written.bind fun _ => unaware_write _

theorem unaware_perform [Limits] (service : Service) (arguments : List Value) :
    Unaware (perform service arguments) := by
  cases service with
  | print => exact (unaware_printLine arguments).bind fun _ => Unaware.pure _
  | range =>
      rcases arguments with _ | ⟨value, _ | ⟨second, rest⟩⟩
      · exact Unaware.throw _
      · exact Unaware.pure value
      · exact Unaware.throw _
  | readLine => exact unaware_readLine.bind fun text => Unaware.pure _
  | clock =>
      have looked : Unaware time := fun _ _ => rfl
      exact looked.bind fun now => Unaware.pure _
  | sleep =>
      have waits : ∀ seconds, Unaware (modify fun machine : Machine =>
          { machine with console := machine.console.wait seconds }) := fun _ _ _ => rfl
      exact ((Unaware.ofExcept _).bind waits).bind fun _ => Unaware.pure _

theorem unaware_load (library : String) : Unaware (load library) := by
  unfold load
  split
  · apply unaware_newIdentity.bind
    intro clock
    apply (unaware_assign _ _).bind
    intro _
    exact unaware_newIdentity.bind fun sleep => unaware_assign _ _
  · exact Unaware.pure ()

/-! ### Control -/

theorem unaware_operate [Limits] (operator : Operator) (left right : Value) :
    Unaware (operate operator left right) := by
  apply (Unaware.ofExcept _).bind
  intro value
  have distinguished : Unaware (distinguish value) := by
    unfold distinguish
    split
    · exact unaware_newIdentity.bind fun identity => Unaware.pure _
    · exact Unaware.pure _
  split
  · exact Unaware.pure value
  · exact Unaware.pure value
  · exact distinguished

theorem Unaware.chooseArm {test : Expr → Run Value} {run : Block → Run Unit} {otherwise : Block}
    (tests : ∀ expression, Unaware (test expression)) (runs : ∀ block, Unaware (run block))
    (arms : List (Expr × Block)) : Unaware (chooseArm test run otherwise arms) := by
  induction arms with
  | nil => exact runs otherwise
  | cons arm rest ih =>
      obtain ⟨condition, body⟩ := arm
      apply (tests condition).bind
      intro value
      split
      · exact runs body
      · exact ih

theorem Unaware.round {body : Run Unit} (unaware : Unaware body) (entries : Entries Value) :
    Unaware (round entries body) := by
  intro front machine
  rw [run_round, run_round, outcome, after, unaware.inScope entries front machine]
  rfl

theorem Unaware.returning {body : Run Unit} (unaware : Unaware body) : Unaware (returning body) := by
  intro front machine
  rw [run_returning, run_returning, outcome, after, unaware front machine]
  rfl

theorem Unaware.countUp {body : Nat → Run Bool} (unaware : ∀ index, Unaware (body index))
    (left start : Nat) : Unaware (countUp body start left) := by
  induction left generalizing start with
  | zero => exact Unaware.pure ()
  | succ left ih =>
      apply (unaware start).bind
      intro goesOn
      split
      · exact ih (start + 1)
      · exact Unaware.pure ()

theorem Unaware.whileTrue {condition : Run Value} {body : Run Bool} (tests : Unaware condition)
    (unaware : Unaware body) (left : Nat) : Unaware (whileTrue condition body left) := by
  induction left with
  | zero => exact Unaware.throw _
  | succ left ih =>
      apply tests.bind
      intro value
      split
      · apply unaware.bind
        intro goesOn
        split
        · exact ih
        · exact Unaware.pure ()
      · exact Unaware.pure ()

end

/-! ### Expressions and statements -/

variable [Limits]

section

variable {rounds depth : Nat}
  (evaluates : ∀ expression, Unaware (evaluate rounds depth expression))
  (executes : ∀ statement, Unaware (execute rounds depth statement))

include evaluates executes in
private theorem unaware_evaluate_succ (expression : Expr) :
    Unaware (evaluate rounds (depth + 1) expression) := by
  cases expression with
  | literal value => exact Unaware.pure _
  | «variable» name => exact unaware_lookup name
  | binary left operator right =>
      apply (evaluates left).bind
      intro leftValue
      exact (evaluates right).bind fun rightValue => unaware_operate operator leftValue rightValue
  | table entries =>
      have fields : ∀ entry : String × Expr, Unaware (do
          let value ← evaluate rounds depth entry.2
          return (entry.1, value)) :=
        fun entry => (evaluates entry.2).bind fun value => Unaware.pure _
      apply (Unaware.mapM entries fields).bind
      intro found
      exact unaware_newIdentity.bind fun identity => Unaware.pure _
  | call callee arguments =>
      apply (unaware_lookup callee).bind
      intro value
      apply (Unaware.mapM arguments evaluates).bind
      intro values
      cases value with
      | function identity parameters body =>
          exact (Unaware.forM body executes).returning.inScope _
      | service identity offered => exact unaware_perform offered values
      | _ => exact Unaware.throw _
  | misplaced sort => exact Unaware.throw _
  | lacking sort part => exact Unaware.throw _

include evaluates executes in
private theorem unaware_execute_succ (statement : Stmt) :
    Unaware (execute rounds (depth + 1) statement) := by
  have blocks : ∀ block, Unaware (runBlock (execute rounds depth) block) :=
    fun block => Unaware.forM block executes
  cases statement with
  | print arguments =>
      apply (Unaware.mapM arguments evaluates).bind
      intro values
      apply (unaware_lookupGlobal "printline").bind
      intro printer
      cases printer with
      | service identity offered => exact (unaware_perform offered values).discard
      | _ => exact Unaware.throw _
  | assign name value => exact (evaluates value).bind fun result => unaware_assign name result
  | branch condition body arms otherwise => exact Unaware.chooseArm evaluates blocks _
  | count name limit body =>
      apply (evaluates limit).bind
      intro value
      cases value.integer? with
      | none => exact Unaware.throw _
      | some bound => exact Unaware.countUp (fun index => (blocks body).round _) _ 0
  | loop condition body =>
      exact Unaware.whileTrue (evaluates condition) ((blocks body).round []) rounds
  | leave => exact Unaware.throw _
  | next => exact Unaware.throw _
  | define name parameters body =>
      exact unaware_newIdentity.bind fun identity => unaware_assign name _
  | result value =>
      cases value with
      | none => exact Unaware.throw _
      | some value => exact (evaluates value).bind fun result => Unaware.throw _
  | load library => exact unaware_load library
  | evaluate value => exact (evaluates value).discard

end

theorem unaware_evaluate_and_execute (rounds depth : Nat) :
    (∀ expression, Unaware (evaluate rounds depth expression)) ∧
      ∀ statement, Unaware (execute rounds depth statement) := by
  induction depth with
  | zero => exact ⟨fun _ => Unaware.throw _, fun _ => Unaware.throw _⟩
  | succ depth ih => exact ⟨unaware_evaluate_succ ih.1 ih.2, unaware_execute_succ ih.1 ih.2⟩

theorem unaware_programWithin (rounds depth : Nat) (program : Program) :
    Unaware (programWithin rounds depth program) :=
  Unaware.forM program.statements (unaware_evaluate_and_execute rounds depth).2

end Run

namespace Machine

variable [Limits]

theorem runProgramWithin_behind (rounds depth : Nat) (program : Program) (front : Content)
    (machine : Machine) : (machine.behind front).runProgramWithin rounds depth program =
      (machine.runProgramWithin rounds depth program).map id (behind front) := by
  rw [runProgramWithin, runProgramWithin, Run.unaware_programWithin rounds depth program front machine]
  cases (Run.programWithin rounds depth program).run.run machine with
  | mk ended left =>
      cases ended with
      | ok _ => rfl
      | error stop => rfl

/-- A source text runs alike whatever was written before it. -/
theorem runSource_behind (source : String) (front : Content) (machine : Machine) :
    (machine.behind front).runSource source = (machine.runSource source).map id (behind front) := by
  rw [runSource, runSource]
  cases compile source with
  | error failure => rfl
  | ok program =>
      change (((machine.behind front).runProgram program).map (Option.map Failure.stopped) id) = _
      rw [runProgram, runProgramWithin_behind]
      rfl

end Machine

end IndentScript
