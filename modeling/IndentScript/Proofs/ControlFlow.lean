import IndentScript.Machine.Session
import IndentScript.Proofs.HeldValues

/-!
Signals of control flow do not escape. A program is well scoped when `break` and `continue` stand in
loops and `return` stands in functions only. Whatever well-scoped programs are run one after another
on a machine, no such signal is left at the end of any of them.

A call runs the body of a function that was made elsewhere. So the proof carries an invariant of the
machine: every function that a scope holds has a well-scoped body.
-/

namespace IndentScript

/-! ### Well-scoped programs -/

mutual

/-- The signals of loops occur where `inLoop` says so or within loops of the statement, and those of
functions where `inFunction` says so or within functions of the statement. The loops around a
function do not count in its body. -/
def Stmt.isWellScoped (inLoop inFunction : Bool) : Stmt → Bool
  | .branch _ body arms otherwise =>
    Stmt.areWellScoped inLoop inFunction body && Stmt.armsAreWellScoped inLoop inFunction arms
      && Stmt.otherwiseIsWellScoped inLoop inFunction otherwise
  | .count _ _ body => Stmt.areWellScoped true inFunction body
  | .loop _ body => Stmt.areWellScoped true inFunction body
  | .leave => inLoop
  | .next => inLoop
  | .define _ _ body => Stmt.areWellScoped false true body
  | .result _ => inFunction
  | _ => true

def Stmt.areWellScoped (inLoop inFunction : Bool) : List Stmt → Bool
  | [] => true
  | statement :: rest =>
    statement.isWellScoped inLoop inFunction && Stmt.areWellScoped inLoop inFunction rest

def Stmt.armsAreWellScoped (inLoop inFunction : Bool) : List (Expr × List Stmt) → Bool
  | [] => true
  | (_, body) :: rest =>
    Stmt.areWellScoped inLoop inFunction body && Stmt.armsAreWellScoped inLoop inFunction rest

def Stmt.otherwiseIsWellScoped (inLoop inFunction : Bool) : Option (List Stmt) → Bool
  | none => true
  | some body => Stmt.areWellScoped inLoop inFunction body

end

def Program.isWellScoped (program : Program) : Bool :=
  Stmt.areWellScoped false false program.statements

def Value.isWellScoped : Value → Bool
  | .function _ _ body => Stmt.areWellScoped false true body
  | _ => true

def Stop.isAllowed (inLoop inFunction : Bool) : Stop → Bool
  | .leave | .next => inLoop
  | .result value => inFunction && value.isWellScoped
  | .fault _ | .interrupt | .unfinished => true

section

variable {inLoop inFunction : Bool}

theorem Stmt.isWellScoped_of_mem {statements : List Stmt}
    (wellScoped : Stmt.areWellScoped inLoop inFunction statements = true) :
    ∀ statement ∈ statements, statement.isWellScoped inLoop inFunction = true := by
  induction statements with
  | nil => exact List.forall_mem_nil _
  | cons statement rest ih =>
      obtain ⟨first, others⟩ := Bool.and_eq_true_iff.mp wellScoped
      exact List.forall_mem_cons.mpr ⟨first, ih others⟩

theorem Stmt.areWellScoped_of_mem {arms : List (Expr × List Stmt)}
    (wellScoped : Stmt.armsAreWellScoped inLoop inFunction arms = true) :
    ∀ arm ∈ arms, Stmt.areWellScoped inLoop inFunction arm.2 = true := by
  induction arms with
  | nil => exact List.forall_mem_nil _
  | cons arm rest ih =>
      obtain ⟨first, others⟩ := Bool.and_eq_true_iff.mp wellScoped
      exact List.forall_mem_cons.mpr ⟨first, ih others⟩

theorem Value.isWellScoped_of_isPlain {value : Value} (plain : value.isPlain = true) :
    value.isWellScoped = true := by
  cases value with
  | function identity parameters body => cases plain
  | _ => rfl

theorem Value.isWellScoped_ofLiteral (literal : Literal) :
    (Value.ofLiteral literal).isWellScoped = true := by
  cases literal <;> rfl

theorem Stop.isAllowed_of_isFailure {stop : Stop} (failure : stop.isFailure = true) :
    stop.isAllowed inLoop inFunction = true := by
  cases stop with
  | leave | next | result => cases failure
  | _ => rfl

theorem Stop.isAllowed_of_isOrdinary {stop : Stop} (ordinary : stop.isOrdinary = true) :
    stop.isAllowed inLoop inFunction = true :=
  isAllowed_of_isFailure (isFailure_of_isOrdinary ordinary)

theorem Stop.isFailure_of_isAllowed {stop : Stop} (allowed : stop.isAllowed false false = true) :
    stop.isFailure = true := by
  cases stop with
  | leave | next | result => cases allowed
  | _ => rfl

end

namespace Run

abbrev HoldsWellScoped (scopes : Scopes) : Prop :=
  Holds (fun value => value.isWellScoped = true) scopes

/-- The run keeps functions well scoped, gives a well-scoped value and fails only. -/
abbrev Evaluates (run : Run Value) : Prop :=
  Keeps HoldsWellScoped (fun value => value.isWellScoped = true)
    (fun stop => stop.isFailure = true) run

/-- The run keeps functions well scoped and is stopped by what is allowed at such a place. -/
abbrev Executes (inLoop inFunction : Bool) (run : Run Unit) : Prop :=
  Keeps HoldsWellScoped (fun _ => True) (fun stop => stop.isAllowed inLoop inFunction = true) run

section

variable {run : Stmt → Run Unit} {inLoop inFunction : Bool}

abbrev ExecutesAll (run : Stmt → Run Unit) : Prop :=
  ∀ statement inLoop inFunction, statement.isWellScoped inLoop inFunction = true →
    Executes inLoop inFunction (run statement)

theorem executes_runBlock (executes : ExecutesAll run) {block : Block}
    (wellScoped : Stmt.areWellScoped inLoop inFunction block = true) :
    Executes inLoop inFunction (runBlock run block) :=
  Keeps.forM block fun statement member =>
    executes statement inLoop inFunction (Stmt.isWellScoped_of_mem wellScoped statement member)

/-- The rounds of a loop take the signals of loops. -/
theorem executes_round (executes : ExecutesAll run) {entries : Entries Value} {body : Block}
    (held : ∀ entry ∈ entries, entry.2.isWellScoped = true)
    (wellScoped : Stmt.areWellScoped true inFunction body = true) :
    Keeps HoldsWellScoped (fun _ => True) (fun stop => stop.isAllowed inLoop inFunction = true)
      (round entries (runBlock run body)) := by
  apply Keeps.round _ _ _ (executes_runBlock executes wellScoped)
  · exact fun scopes holds => holds.cons held
  · exact fun scopes holds => holds.drop 1
  · intro signal allowed notLeave notNext
    cases signal with
    | leave => exact absurd rfl notLeave
    | next => exact absurd rfl notNext
    | _ => exact allowed

/-- A call takes the signal of functions. The invariant says that the body is well scoped. -/
theorem evaluates_callNamed [Limits] (executes : ExecutesAll run) {name : String} {callee : Value}
    {arguments : List Value} (wellScoped : callee.isWellScoped = true)
    (given : ∀ argument ∈ arguments, argument.isWellScoped = true) :
    Evaluates (callNamed run name callee arguments) := by
  apply Keeps.callNamed _ (fun _ => Value.isWellScoped_of_isPlain) given
    (fun _ => Stop.isFailure_of_isOrdinary)
  rintro identity parameters body rfl
  have pairs : ∀ pair ∈ parameters.zip arguments, pair.2.isWellScoped = true :=
    fun pair member => given pair.2 (List.of_mem_zip member).2
  have returns : Evaluates (returning (runBlock run body)) := by
    refine Keeps.returning ?_ ?_ ?_ (executes_runBlock executes wellScoped)
    · rfl
    · intro found allowed
      exact allowed
    · intro signal allowed notResult
      cases signal with
      | result found => exact absurd rfl (notResult found)
      | leave | next => cases allowed
      | _ => rfl
  have entries := Entries.forall_mem_ofPairs pairs
  exact Keeps.inScope (fun scopes holds => holds.cons entries) (fun scopes holds => holds.drop 1)
    returns

end

/-! ### Expressions and statements -/

variable [Limits]

section

variable {rounds depth : Nat} {inLoop inFunction : Bool}

/-- One level of an expression, from the expressions and statements one level deeper. -/
private theorem evaluates_evaluate_succ
    (evaluates : ∀ expression, Evaluates (evaluate rounds depth expression))
    (executes : ExecutesAll (execute rounds depth)) (expression : Expr) :
    Evaluates (evaluate rounds (depth + 1) expression) := by
  have finds : ∀ name, Evaluates (lookup name) :=
    fun name => Keeps.lookup (fun scopes holds found isFound => holds.find? isFound) rfl
  cases expression with
  | literal value =>
      exact Keeps.pure (Value.isWellScoped_ofLiteral value)
  | «variable» name => exact finds name
  | binary left operator right =>
      apply (evaluates left).bind
      intro leftValue isLeft
      apply (evaluates right).bind
      intro rightValue isRight
      apply Keeps.operate _ (fun _ => Value.isWellScoped_of_isPlain) fun _ _ => rfl
      intro found applied
      rcases Operator.apply_eq_ok applied with rfl | rfl | plain
      · exact isLeft
      · exact isRight
      · exact Value.isWellScoped_of_isPlain plain
  | table entries =>
      have fields := Keeps.mapM entries fun entry _ => (evaluates entry.2).bind fun value _ =>
        (Keeps.pure trivial : Keeps HoldsWellScoped (fun _ => True)
          (fun stop => stop.isFailure = true) (pure (entry.1, value)))
      apply fields.bind
      intro found _
      exact Keeps.newIdentity.bind fun identity _ => Keeps.pure rfl
  | call callee arguments =>
      apply (finds callee).bind
      intro value isValue
      apply (Keeps.mapM arguments fun argument _ => evaluates argument).bind
      intro values areValues
      exact evaluates_callNamed executes isValue areValues
  | misplaced sort => exact Keeps.fail rfl
  | lacking sort part => exact Keeps.fail rfl

private theorem executes_execute_succ
    (evaluates : ∀ expression, Evaluates (evaluate rounds depth expression))
    (executes : ExecutesAll (execute rounds depth)) (statement : Stmt)
    (wellScoped : statement.isWellScoped inLoop inFunction = true) :
    Executes inLoop inFunction (execute rounds (depth + 1) statement) := by
  have expressions : ∀ expression, Keeps HoldsWellScoped (fun value => value.isWellScoped = true)
      (fun stop => stop.isAllowed inLoop inFunction = true) (evaluate rounds depth expression) :=
    fun expression => (evaluates expression).mono (fun _ isValue => isValue)
      fun _ => Stop.isAllowed_of_isFailure
  have tests : ∀ expression, Keeps HoldsWellScoped (fun _ => True)
      (fun stop => stop.isAllowed inLoop inFunction = true) (evaluate rounds depth expression) :=
    fun expression => (expressions expression).mono (fun _ _ => trivial) fun _ allowed => allowed
  have assigns : ∀ name value, value.isWellScoped = true →
      Executes inLoop inFunction (assign name value) :=
    fun name value isValue => Keeps.assign fun scopes holds => holds.assigned name isValue
  cases statement with
  | print arguments =>
      apply (Keeps.mapM arguments fun argument _ => expressions argument).bind
      intro values _
      have printers : Keeps HoldsWellScoped (fun _ => True)
          (fun stop => stop.isAllowed inLoop inFunction = true) (lookupGlobal "printline") :=
        Keeps.lookupGlobal rfl
      apply printers.bind
      intro printer _
      exact Keeps.printWith printer values fun _ => Stop.isAllowed_of_isOrdinary
  | assign name value =>
      exact (expressions value).bind fun result isResult => assigns name result isResult
  | branch condition body arms otherwise =>
      simp only [Stmt.isWellScoped, Bool.and_eq_true] at wellScoped
      obtain ⟨⟨bodyScoped, armsScoped⟩, otherwiseScoped⟩ := wellScoped
      have armScoped : ∀ arm ∈ (condition, body) :: arms,
          Stmt.areWellScoped inLoop inFunction arm.2 = true :=
        List.forall_mem_cons.mpr ⟨bodyScoped, Stmt.areWellScoped_of_mem armsScoped⟩
      have lastScoped : Stmt.areWellScoped inLoop inFunction (otherwise.getD []) = true := by
        cases otherwise with
        | none => rfl
        | some last => exact otherwiseScoped
      exact Keeps.chooseArm _ (fun arm _ => tests arm.1)
        (fun arm member => executes_runBlock executes (armScoped arm member))
        (executes_runBlock executes lastScoped)
  | count name limit body =>
      apply (expressions limit).bind
      intro value _
      cases value.integer? with
      | none => exact Keeps.fail rfl
      | some bound =>
          exact Keeps.countUp _ 0 fun index =>
            executes_round executes (List.forall_mem_singleton.mpr rfl) wellScoped
  | loop test body =>
      exact Keeps.whileTrue rounds rfl (tests test)
        (executes_round executes (List.forall_mem_nil _) wellScoped)
  | leave => exact Keeps.throw wellScoped
  | next => exact Keeps.throw wellScoped
  | define name parameters body =>
      exact Keeps.newIdentity.bind fun identity _ => assigns name _ wellScoped
  | result value =>
      cases value with
      | none => exact Keeps.throw (Bool.and_eq_true_iff.mpr ⟨wellScoped, rfl⟩)
      | some value =>
          exact (expressions value).bind fun result isResult =>
            Keeps.throw (Bool.and_eq_true_iff.mpr ⟨wellScoped, isResult⟩)
  | load library =>
      exact Keeps.load library fun name _ value scopes plain holds =>
        holds.assigned name (Value.isWellScoped_of_isPlain plain)
  | evaluate value => exact (expressions value).discard

end

theorem evaluates_and_executes (rounds depth : Nat) :
    (∀ expression, Evaluates (evaluate rounds depth expression)) ∧
      ExecutesAll (execute rounds depth) := by
  induction depth with
  | zero => exact ⟨fun _ => Keeps.fail rfl, fun _ _ _ _ => Keeps.fail rfl⟩
  | succ depth ih =>
      exact ⟨evaluates_evaluate_succ ih.1 ih.2,
        fun statement _ _ => executes_execute_succ ih.1 ih.2 statement⟩

end Run

/-! ### Sessions -/

namespace Machine

/-- Runs programs one after another, each on what the one before has left, also when that one was
stopped. Gives what stopped each of them. -/
def runInTurn [Limits] (rounds depth : Nat) : List Program → Machine → List (Option Stop)
  | [], _ => []
  | program :: rest, machine =>
    let (stop, left) := machine.runProgramWithin rounds depth program
    stop :: runInTurn rounds depth rest left

/-- One program of a session: the invariant is there for the next, and nothing but a failure has
stopped it. -/
theorem runProgramWithin_wellScoped [Limits] (rounds depth : Nat) {program : Program}
    {machine : Machine} (wellScoped : program.isWellScoped = true)
    (holds : Run.HoldsWellScoped machine.scopes) :
    Run.HoldsWellScoped (machine.runProgramWithin rounds depth program).2.scopes ∧
      ∀ stop, (machine.runProgramWithin rounds depth program).1 = some stop →
        stop.isFailure = true := by
  obtain ⟨holdsAfter, ends⟩ := Run.executes_runBlock (Run.evaluates_and_executes rounds depth).2
    wellScoped machine holds
  rw [Run.after] at holdsAfter
  rw [Run.outcome] at ends
  rw [runProgramWithin, Run.programWithin]
  cases ran : (Run.runBlock (Run.execute rounds depth) program.statements).run.run machine with
  | mk ended left =>
      rw [ran] at holdsAfter ends
      cases ended with
      | ok _ =>
          refine ⟨holdsAfter, ?_⟩
          intro stop stopped
          cases stopped
      | error signal =>
          refine ⟨holdsAfter, ?_⟩
          intro stop stopped
          cases stopped
          exact Stop.isFailure_of_isAllowed ends

theorem runInTurn_wellScoped [Limits] (rounds depth : Nat) (programs : List Program)
    (wellScoped : ∀ program ∈ programs, program.isWellScoped = true) (machine : Machine)
    (holds : Run.HoldsWellScoped machine.scopes) :
    ∀ stop, some stop ∈ runInTurn rounds depth programs machine → stop.isFailure = true := by
  induction programs generalizing machine with
  | nil =>
      intro stop member
      cases member
  | cons program rest ih =>
      obtain ⟨first, others⟩ := List.forall_mem_cons.mp wellScoped
      obtain ⟨holdsAfter, failure⟩ := runProgramWithin_wellScoped rounds depth first holds
      intro stop member
      rcases List.mem_cons.mp member with stopped | inRest
      · exact failure stop stopped.symm
      · exact ih others _ holdsAfter stop inRest

theorem holdsWellScoped_new (console : Console) : Run.HoldsWellScoped (new console).scopes := by
  have held : ∀ entry ∈ services, entry.2.isWellScoped = true := by decide
  exact List.forall_mem_singleton.mpr held

/-- Whatever well-scoped programs are run one after another on a new machine, with whatever input,
none of them is stopped by a signal of control flow. -/
theorem runInTurn_new_no_signal [Limits] (rounds depth : Nat) (programs : List Program)
    (wellScoped : ∀ program ∈ programs, program.isWellScoped = true) (console : Console) :
    ∀ stop, some stop ∈ runInTurn rounds depth programs (new console) →
      stop ≠ .leave ∧ stop ≠ .next ∧ ∀ value, stop ≠ .result value := by
  intro stop member
  have failure := runInTurn_wellScoped rounds depth programs wellScoped (new console)
    (holdsWellScoped_new console) stop member
  refine ⟨?_, ?_, ?_⟩
  · rintro rfl
    cases failure
  · rintro rfl
    cases failure
  · rintro value rfl
    cases failure

/-- A function that leaves its own loop by `break` and returns, called from the condition and the
body of a loop. -/
def searching : Program :=
  ⟨[.define "first" ["limit"]
      [.count "i" (.variable "limit")
        [.branch (.binary (.variable "i") .equals (.literal (.int 2))) [.leave] [] (some [.next])],
       .result (some (.variable "limit"))],
    .loop (.call "first" [.literal (.int 5)])
      [.evaluate (.call "first" [.literal (.int 3)]), .leave]]⟩

theorem runInTurn_searching :
    (runInTurn 10 50 [searching, ⟨[.evaluate (.variable "i")]⟩] (new {})).map Option.isSome =
        [false, true] ∧
      ∀ stop, some stop ∈ runInTurn 10 50 [searching, ⟨[.evaluate (.variable "i")]⟩] (new {}) →
        stop ≠ .leave ∧ stop ≠ .next ∧ ∀ value, stop ≠ .result value :=
  ⟨by decide +kernel,
    runInTurn_new_no_signal 10 50 [searching, ⟨[.evaluate (.variable "i")]⟩] (by decide) {}⟩

end Machine

end IndentScript
