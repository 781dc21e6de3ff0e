import IndentScript.Proofs.ControlFlow
import IndentScript.Proofs.Moments
import IndentScript.Proofs.ScopeChains

/-!
What a call does with the signals of control flow. It takes the result that stops the body of its
function, wherever the body is stopped, so no expression is ever stopped by a result. The two signals
of loops pass through it: a `break` that the body of the function does not take in a loop of its own
reaches the caller, and with it the loop that the call stands in.

Functions that keep these signals to loops of their own are safe to call from anywhere.
-/

namespace IndentScript

def Stop.isOfLoop : Stop → Bool
  | .leave | .next => true
  | .result _ | .fault _ | .interrupt | .unfinished => false

theorem Stop.isOfLoop_of_isFailure {stop : Stop} (failure : stop.isFailure = true) :
    stop.isOfLoop = false := by
  cases stop with
  | leave | next => cases failure
  | _ => rfl

theorem Stop.ne_result_of_isOrdinary {stop : Stop} (ordinary : stop.isOrdinary = true)
    (value : Value) : stop ≠ .result value := by
  rintro rfl
  cases ordinary

namespace Run

/-! ### Results -/

/-- No result stops the run. -/
abbrev TakesResults {α : Type} (run : Run α) : Prop :=
  Keeps (fun _ => True) (fun _ => True) (fun stop => ∀ value, stop ≠ .result value) run

variable [Limits]

theorem takesResults_callNamed (run : Stmt → Run Unit) (name : String) (callee : Value)
    (arguments : List Value) : TakesResults (callNamed run name callee arguments) := by
  apply Keeps.callNamed _ (fun _ _ => trivial) (fun _ _ => trivial)
    fun _ => Stop.ne_result_of_isOrdinary
  intro identity parameters body _
  have runs : Keeps (fun _ => True) (fun _ => True) (fun _ => True) (runBlock run body) := by
    intro machine _
    refine ⟨trivial, ?_⟩
    cases (runBlock run body).outcome machine with
    | ok _ => trivial
    | error signal => trivial
  have returns : TakesResults (returning (runBlock run body)) :=
    Keeps.returning trivial (fun _ _ => trivial) (fun _ _ other => other) runs
  exact Keeps.inScope (fun _ _ => trivial) (fun _ _ => trivial) returns

/-- By induction on the depth. Nothing need be known of statements, since a call takes the results of
whatever it runs. -/
theorem takesResults_evaluate (rounds depth : Nat) (expression : Expr) :
    TakesResults (evaluate rounds depth expression) := by
  induction depth generalizing expression with
  | zero => exact Keeps.fail fun _ => Stop.noConfusion
  | succ depth ih =>
      have finds : ∀ name, TakesResults (lookup name) :=
        fun name => Keeps.lookup (fun _ _ _ _ => trivial) fun _ => Stop.noConfusion
      cases expression with
      | literal value => exact Keeps.pure trivial
      | «variable» name => exact finds name
      | binary left operator right =>
          apply (ih left).bind
          intro leftValue _
          apply (ih right).bind
          intro rightValue _
          exact Keeps.operate (fun _ _ => trivial) (fun _ _ => trivial)
            fun _ _ _ => Stop.noConfusion
      | table entries =>
          have fields := Keeps.mapM entries fun entry _ => (ih entry.2).bind fun value _ =>
            (Keeps.pure trivial : TakesResults (pure (entry.1, value)))
          apply fields.bind
          intro found _
          exact Keeps.newIdentity.bind fun identity _ => Keeps.pure trivial
      | call callee arguments =>
          apply (finds callee).bind
          intro value _
          apply (Keeps.mapM arguments fun argument _ => ih argument).bind
          intro values _
          exact takesResults_callNamed _ callee value values
      | misplaced sort => exact Keeps.fail fun _ => Stop.noConfusion
      | lacking sort part => exact Keeps.fail fun _ => Stop.noConfusion

/-! ### Signals of loops -/

section

variable {rounds depth : Nat} {callee : String} {arguments : List Expr} {machine : Machine}

/-- A service is stopped by failures only. -/
theorem outcome_perform_ne {signal : Stop} (ofLoop : signal.isOfLoop = true) (service : Service)
    (values : List Value) (machine : Machine) :
    (perform service values).outcome machine ≠ .error signal := by
  intro stopped
  have fails : Keeps (fun _ => True) (fun _ => True) (fun stop => stop.isOrdinary = true)
      (perform service values) :=
    Keeps.perform service (fun _ _ => trivial) (fun _ _ => trivial) fun _ ordinary => ordinary
  have ordinary := (fails machine trivial).2
  rw [stopped] at ordinary
  rw [Stop.isOfLoop_of_isFailure (Stop.isFailure_of_isOrdinary ordinary)] at ofLoop
  cases ofLoop

/-- A call whose arguments have values is stopped by a signal of loops if the body of the function is. -/
theorem outcome_callNamed_eq_iff {signal : Stop} (ofLoop : signal.isOfLoop = true)
    (run : Stmt → Run Unit) (name : String) (value : Value) (values : List Value)
    (machine : Machine) :
    (callNamed run name value values).outcome machine = .error signal ↔
      ∃ identity parameters body, value = .function identity parameters body ∧
        (runBlock run body).outcome (machine.enter (Entries.ofPairs (parameters.zip values))) =
          .error signal := by
  constructor
  · intro stopped
    cases value with
    | function identity parameters body =>
        refine ⟨identity, parameters, body, rfl, ?_⟩
        change (returning (runBlock run body)).outcome (machine.enter _) = _ at stopped
        -- a result would have ended the call, so what stops it has passed the function
        rw [outcome_returning] at stopped
        exact callEnd_eq_error stopped
    | service identity service => exact absurd stopped (outcome_perform_ne ofLoop service values machine)
    | _ =>
        cases stopped
        cases ofLoop
  · rintro ⟨identity, parameters, body, rfl, stopped⟩
    change (returning (runBlock run body)).outcome (machine.enter _) = _
    rw [outcome_returning, stopped]
    cases signal with
    | leave => rfl
    | next => rfl
    | _ => cases ofLoop

theorem run_call_of_find? {value : Value} (found : find? callee machine.scopes = some value) :
    (evaluate rounds (depth + 1) (.call callee arguments)).run.run machine =
      (do
        let values ← arguments.mapM (evaluate rounds depth)
        callNamed (execute rounds depth) callee value values).run.run machine := by
  rw [evaluate, run_bind_ok (run_lookup_some found)]

/-- The name of the function is looked up before anything is evaluated, so that a call of an unknown
name is no signal. -/
theorem outcome_call_eq_iff {signal : Stop} (ofLoop : signal.isOfLoop = true) :
    (evaluate rounds (depth + 1) (.call callee arguments)).outcome machine = .error signal ↔
      ∃ value, find? callee machine.scopes = some value ∧
        ((arguments.mapM (evaluate rounds depth)).outcome machine = .error signal ∨
          ∃ identity parameters body values middle, value = .function identity parameters body ∧
            (arguments.mapM (evaluate rounds depth)).run.run machine = (.ok values, middle) ∧
            (runBlock (execute rounds depth) body).outcome
              (middle.enter (Entries.ofPairs (parameters.zip values))) = .error signal) := by
  cases found : find? callee machine.scopes with
  | none =>
      rw [outcome, evaluate, run_bind_error (run_lookup_none found)]
      constructor
      · intro stopped
        cases stopped
        cases ofLoop
      · rintro ⟨value, known, _⟩
        cases known
  | some value =>
      rw [outcome, run_call_of_find? found, outcome]
      cases ran : (arguments.mapM (evaluate rounds depth)).run.run machine with
      | mk ended middle =>
          cases ended with
          | error other =>
              rw [run_bind_error ran]
              constructor
              · intro stopped
                cases stopped
                exact ⟨value, rfl, .inl rfl⟩
              · rintro ⟨_, _, stopped | ⟨_, _, _, _, _, _, evaluated, _⟩⟩
                · cases stopped
                  rfl
                · cases evaluated
          | ok values =>
              rw [run_bind_ok ran]
              refine (outcome_callNamed_eq_iff ofLoop _ callee value values middle).trans ?_
              constructor
              · rintro ⟨identity, parameters, body, isFunction, stopped⟩
                exact ⟨value, rfl, .inr ⟨identity, parameters, body, values, middle, isFunction, rfl,
                  stopped⟩⟩
              · rintro ⟨_, same, stopped | ⟨identity, parameters, body, _, _, isFunction, evaluated,
                  stopped⟩⟩
                · cases stopped
                · cases same
                  cases evaluated
                  exact ⟨identity, parameters, body, isFunction, stopped⟩

omit [Limits] in
/-- A signal of the first thing that is done is one of the whole. -/
theorem outcome_bind_of_error {α β : Type} {first : Run α} {signal : Stop} {machine : Machine}
    (stopped : first.outcome machine = .error signal) (next : α → Run β) :
    (first >>= next).outcome machine = .error signal := by
  have ran : first.run.run machine = (.error signal, first.after machine) := Prod.ext stopped rfl
  rw [outcome, run_bind_error ran]

omit [Limits] in
/-- What stops the first statement in a round of a loop is taken or passed on by the loop. -/
theorem outcome_round_of_error {run : Stmt → Run Unit} {statement : Stmt} {entries : Entries Value}
    {signal : Stop} {machine : Machine}
    (stopped : (run statement).outcome (machine.enter entries) = .error signal) (rest : Block) :
    (round entries (runBlock run (statement :: rest))).outcome machine = loopEnd (.error signal) := by
  have inner : (runBlock run (statement :: rest)).outcome (machine.enter entries) = .error signal :=
    outcome_bind_of_error stopped _
  rw [outcome_round]
  exact congrArg loopEnd inner

end

end Run

open Run in
/-- No result stops a call. A signal of loops stops it exactly if that signal stops the arguments or
the body of the function. As a statement, as a condition or as the limit of a loop the call passes on
what stops it, and in the body of a loop it ends the loop or the round by such a signal. Where all
functions keep these signals to loops of their own, none stops a call. -/
theorem call_passes_signals_of_loops [Limits] (rounds depth : Nat) (callee : String)
    (arguments : List Expr) (machine : Machine) :
    let call := Expr.call callee arguments
    let ended := (evaluate rounds (depth + 1) call).outcome machine
    (∀ value, ended ≠ .error (.result value)) ∧
    (∀ signal, signal.isOfLoop = true →
      (ended = .error signal ↔
        ∃ value, find? callee machine.scopes = some value ∧
          ((arguments.mapM (evaluate rounds depth)).outcome machine = .error signal ∨
            ∃ identity parameters body values middle, value = .function identity parameters body ∧
              (arguments.mapM (evaluate rounds depth)).run.run machine = (.ok values, middle) ∧
              (runBlock (execute rounds depth) body).outcome
                (middle.enter (Entries.ofPairs (parameters.zip values))) = .error signal))) ∧
    (∀ signal, ended = .error signal →
      (execute rounds (depth + 2) (.evaluate call)).outcome machine = .error signal ∧
      (0 < rounds → ∀ body,
        (execute rounds (depth + 2) (.loop call body)).outcome machine = .error signal) ∧
      (∀ name body,
        (execute rounds (depth + 2) (.count name call body)).outcome machine = .error signal) ∧
      ∀ outer entries rest, machine = outer.enter entries →
        (round entries (runBlock (execute rounds (depth + 2)) (.evaluate call :: rest))).outcome
          outer = loopEnd (.error signal)) ∧
    (HoldsWellScoped machine.scopes → ∀ signal, ended = .error signal →
      signal.isOfLoop = false) := by
  intro call ended
  refine ⟨?_, fun signal ofLoop => outcome_call_eq_iff ofLoop, ?_, ?_⟩
  · intro value stopped
    have ends := (takesResults_evaluate rounds (depth + 1) call machine trivial).2
    rw [show (evaluate rounds (depth + 1) call).outcome machine = _ from stopped] at ends
    exact ends value rfl
  · intro signal stopped
    have asStatement : (execute rounds (depth + 2) (.evaluate call)).outcome machine =
        .error signal := outcome_bind_of_error stopped _
    refine ⟨asStatement, ?_, ?_, ?_⟩
    · intro positive body
      obtain ⟨left, rfl⟩ := Nat.exists_eq_succ_of_ne_zero (Nat.ne_of_gt positive)
      rw [execute, whileTrue]
      exact outcome_bind_of_error stopped _
    · intro name body
      exact outcome_bind_of_error stopped _
    · rintro outer entries rest rfl
      exact outcome_round_of_error asStatement rest
  · intro holds signal stopped
    have ends := ((evaluates_and_executes rounds (depth + 1)).1 call machine holds).2
    rw [show (evaluate rounds (depth + 1) call).outcome machine = _ from stopped] at ends
    exact Stop.isOfLoop_of_isFailure ends

def strayBreak : Machine :=
  { Machine.new {} with scopes := [[("f", .function 4 ["n"] [.leave])], Machine.services] }

open Run in
/-- The function leaves the loop around its call; without it, a call is stopped by no such signal. -/
theorem call_passes_signals_strayBreak :
    (round [] (runBlock (execute 10 7) [.evaluate (.call "f" []), .print []])).outcome
        strayBreak = .ok false ∧
      HoldsWellScoped (Machine.new {}).scopes ∧
      ∀ signal, (evaluate 10 6 (.call "range" [])).outcome (Machine.new {}) = .error signal →
        signal.isOfLoop = false := by
  obtain ⟨_, stops, passes, _⟩ :=
    call_passes_signals_of_loops 10 5 "f" [] (strayBreak.enter [])
  obtain ⟨_, _, _, spares⟩ := call_passes_signals_of_loops 10 5 "range" [] (Machine.new {})
  have stopped := (stops .leave rfl).mpr
    ⟨_, rfl, .inr ⟨4, ["n"], [.leave], [], strayBreak.enter [], rfl, rfl, rfl⟩⟩
  have holds := Machine.holdsWellScoped_new {}
  exact ⟨(passes .leave stopped).2.2.2 strayBreak [] [.print []] rfl, holds, spares holds⟩

def leavesCaller : String :=
  "func f():\n    break\nfor i in range(3):\n    printline(i)\n    f()\nprintline(9)\n"

/-- A call is stopped by `break`, and a loop around such a call has one round. -/
theorem call_leaves_loop_of_caller :
    let ran := (Machine.new {}).runSource leavesCaller
    (Run.evaluate 10 6 (.call "f" [])).outcome strayBreak = .error .leave ∧
      ran.1.isNone = true ∧ ran.2.console.output = .plain "0 \n9 \n" :=
  ⟨rfl, by decide +kernel, by decide +kernel⟩

end IndentScript
