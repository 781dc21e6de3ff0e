import Mathlib.Logic.Relation
import IndentScript.Proofs.Runs

/-!
What takes place in a run. The work of the evaluator is made of smaller pieces of work, each of which
starts on the machine that those before it have left. A moment is a piece of work that is about to
be done, with the depth that is left for it and the machine; `Starts` says which moments come directly
out of which.

The relation leaves nothing out that can be at fault: when a run blames the tree of a program, a node
outside the language is evaluated at one of its moments.
-/

namespace IndentScript

inductive Work where
  | evaluation (expression : Expr)
  | evaluations (expressions : List Expr)
  | execution (statement : Stmt)
  | executions (block : Block)
  /-- The arms of a branch that are still to be tried, before its last block. -/
  | choice (otherwise : Block) (arms : List (Expr × Block))
  /-- The rounds of a counting loop from `start` on. -/
  | counting (name : String) (body : Block) (start left : Nat)
  | looping (condition : Expr) (body : Block) (left : Nat)

section

variable [Limits]

def Work.run (rounds depth : Nat) : Work → Run Unit
  | .evaluation expression => discard (Run.evaluate rounds depth expression)
  | .evaluations expressions => discard (expressions.mapM (Run.evaluate rounds depth))
  | .execution statement => Run.execute rounds depth statement
  | .executions block => Run.runBlock (Run.execute rounds depth) block
  | .choice otherwise arms =>
    Run.chooseArm (Run.evaluate rounds depth) (Run.runBlock (Run.execute rounds depth)) otherwise arms
  | .counting name body start left =>
    Run.countUp (fun index => Run.round [(name, .int index)]
      (Run.runBlock (Run.execute rounds depth) body)) start left
  | .looping condition body left =>
    Run.whileTrue (Run.evaluate rounds depth condition)
      (Run.round [] (Run.runBlock (Run.execute rounds depth) body)) left

structure Moment where
  work : Work
  depth : Nat
  machine : Machine

def Moment.outcome (rounds : Nat) (moment : Moment) : Except Stop Unit :=
  (moment.work.run rounds moment.depth).outcome moment.machine

/-- The machine that the work of the moment leaves, also when it is stopped. -/
def Moment.left (rounds : Nat) (moment : Moment) : Machine :=
  (moment.work.run rounds moment.depth).after moment.machine

def Machine.enter (machine : Machine) (entries : Entries Value) : Machine :=
  { machine with scopes := entries :: machine.scopes }

open Run in
/-- The work of the first moment comes to do that of the second as one of its parts. -/
inductive Starts (rounds : Nat) : Moment → Moment → Prop where
  -- expressions
  | left {left right : Expr} {operator : Operator} {depth : Nat} {machine : Machine} :
    Starts rounds ⟨.evaluation (.binary left operator right), depth + 1, machine⟩
      ⟨.evaluation left, depth, machine⟩
  | right {left right : Expr} {operator : Operator} {depth : Nat} {machine middle : Machine}
      {found : Value} :
    (evaluate rounds depth left).run.run machine = (.ok found, middle) →
    Starts rounds ⟨.evaluation (.binary left operator right), depth + 1, machine⟩
      ⟨.evaluation right, depth, middle⟩
  | fields {entries : List (String × Expr)} {depth : Nat} {machine : Machine} :
    Starts rounds ⟨.evaluation (.table entries), depth + 1, machine⟩
      ⟨.evaluations (entries.map Prod.snd), depth, machine⟩
  | arguments {callee : String} {arguments : List Expr} {depth : Nat} {machine : Machine}
      {value : Value} : find? callee machine.scopes = some value →
    Starts rounds ⟨.evaluation (.call callee arguments), depth + 1, machine⟩
      ⟨.evaluations arguments, depth, machine⟩
  | called {callee : String} {arguments : List Expr} {depth : Nat} {machine middle : Machine}
      {identity : Nat} {parameters : List String} {body : Block} {values : List Value} :
    find? callee machine.scopes = some (.function identity parameters body) →
    (arguments.mapM (evaluate rounds depth)).run.run machine = (.ok values, middle) →
    Starts rounds ⟨.evaluation (.call callee arguments), depth + 1, machine⟩
      ⟨.executions body, depth, middle.enter (Entries.ofPairs (parameters.zip values))⟩
  | firstExpression {expression : Expr} {others : List Expr} {depth : Nat} {machine : Machine} :
    Starts rounds ⟨.evaluations (expression :: others), depth, machine⟩
      ⟨.evaluation expression, depth, machine⟩
  | otherExpressions {expression : Expr} {others : List Expr} {depth : Nat}
      {machine middle : Machine} {found : Value} :
    (evaluate rounds depth expression).run.run machine = (.ok found, middle) →
    Starts rounds ⟨.evaluations (expression :: others), depth, machine⟩
      ⟨.evaluations others, depth, middle⟩
  -- statements
  | printed {arguments : List Expr} {depth : Nat} {machine : Machine} :
    Starts rounds ⟨.execution (.print arguments), depth + 1, machine⟩
      ⟨.evaluations arguments, depth, machine⟩
  | assigned {name : String} {value : Expr} {depth : Nat} {machine : Machine} :
    Starts rounds ⟨.execution (.assign name value), depth + 1, machine⟩
      ⟨.evaluation value, depth, machine⟩
  | branch {condition : Expr} {body : Block} {arms : List (Expr × Block)}
      {otherwise : Option Block} {depth : Nat} {machine : Machine} :
    Starts rounds ⟨.execution (.branch condition body arms otherwise), depth + 1, machine⟩
      ⟨.choice (otherwise.getD []) ((condition, body) :: arms), depth, machine⟩
  | limit {name : String} {limit : Expr} {body : Block} {depth : Nat} {machine : Machine} :
    Starts rounds ⟨.execution (.count name limit body), depth + 1, machine⟩
      ⟨.evaluation limit, depth, machine⟩
  | count {name : String} {limit : Expr} {body : Block} {depth : Nat} {machine middle : Machine}
      {found : Value} {bound : Int} :
    (evaluate rounds depth limit).run.run machine = (.ok found, middle) →
    found.integer? = some bound →
    Starts rounds ⟨.execution (.count name limit body), depth + 1, machine⟩
      ⟨.counting name body 0 bound.toNat, depth, middle⟩
  | loop {condition : Expr} {body : Block} {depth : Nat} {machine : Machine} :
    Starts rounds ⟨.execution (.loop condition body), depth + 1, machine⟩
      ⟨.looping condition body rounds, depth, machine⟩
  | result {value : Expr} {depth : Nat} {machine : Machine} :
    Starts rounds ⟨.execution (.result (some value)), depth + 1, machine⟩
      ⟨.evaluation value, depth, machine⟩
  | evaluated {value : Expr} {depth : Nat} {machine : Machine} :
    Starts rounds ⟨.execution (.evaluate value), depth + 1, machine⟩
      ⟨.evaluation value, depth, machine⟩
  | firstStatement {statement : Stmt} {others : Block} {depth : Nat} {machine : Machine} :
    Starts rounds ⟨.executions (statement :: others), depth, machine⟩
      ⟨.execution statement, depth, machine⟩
  | otherStatements {statement : Stmt} {others : Block} {depth : Nat} {machine middle : Machine} :
    (execute rounds depth statement).run.run machine = (.ok (), middle) →
    Starts rounds ⟨.executions (statement :: others), depth, machine⟩
      ⟨.executions others, depth, middle⟩
  -- arms of a branch
  | test {condition : Expr} {body otherwise : Block} {arms : List (Expr × Block)} {depth : Nat}
      {machine : Machine} :
    Starts rounds ⟨.choice otherwise ((condition, body) :: arms), depth, machine⟩
      ⟨.evaluation condition, depth, machine⟩
  | taken {condition : Expr} {body otherwise : Block} {arms : List (Expr × Block)} {depth : Nat}
      {machine middle : Machine} {found : Value} :
    (evaluate rounds depth condition).run.run machine = (.ok found, middle) →
    found.isTrue = true →
    Starts rounds ⟨.choice otherwise ((condition, body) :: arms), depth, machine⟩
      ⟨.executions body, depth, middle⟩
  | passed {condition : Expr} {body otherwise : Block} {arms : List (Expr × Block)} {depth : Nat}
      {machine middle : Machine} {found : Value} :
    (evaluate rounds depth condition).run.run machine = (.ok found, middle) →
    found.isTrue = false →
    Starts rounds ⟨.choice otherwise ((condition, body) :: arms), depth, machine⟩
      ⟨.choice otherwise arms, depth, middle⟩
  | otherwise {otherwise : Block} {depth : Nat} {machine : Machine} :
    Starts rounds ⟨.choice otherwise [], depth, machine⟩ ⟨.executions otherwise, depth, machine⟩
  -- rounds of loops
  | countRound {name : String} {body : Block} {start left depth : Nat} {machine : Machine} :
    Starts rounds ⟨.counting name body start (left + 1), depth, machine⟩
      ⟨.executions body, depth, machine.enter [(name, .int start)]⟩
  | countOn {name : String} {body : Block} {start left depth : Nat} {machine middle : Machine} :
    (round [(name, .int start)] (runBlock (execute rounds depth) body)).run.run machine =
      (.ok true, middle) →
    Starts rounds ⟨.counting name body start (left + 1), depth, machine⟩
      ⟨.counting name body (start + 1) left, depth, middle⟩
  | loopTest {condition : Expr} {body : Block} {left depth : Nat} {machine : Machine} :
    Starts rounds ⟨.looping condition body (left + 1), depth, machine⟩
      ⟨.evaluation condition, depth, machine⟩
  | loopRound {condition : Expr} {body : Block} {left depth : Nat} {machine middle : Machine}
      {found : Value} :
    (evaluate rounds depth condition).run.run machine = (.ok found, middle) →
    found.isTrue = true →
    Starts rounds ⟨.looping condition body (left + 1), depth, machine⟩
      ⟨.executions body, depth, middle.enter []⟩
  | loopOn {condition : Expr} {body : Block} {left depth : Nat} {machine middle last : Machine}
      {found : Value} :
    (evaluate rounds depth condition).run.run machine = (.ok found, middle) →
    found.isTrue = true →
    (round [] (runBlock (execute rounds depth) body)).run.run middle = (.ok true, last) →
    Starts rounds ⟨.looping condition body (left + 1), depth, machine⟩
      ⟨.looping condition body left, depth, last⟩

/-- In the course of the work of the first moment it comes to the second. -/
abbrev Reaches (rounds : Nat) : Moment → Moment → Prop :=
  Relation.ReflTransGen (Starts rounds)

/-! ### Faults of the tree -/

def Expr.isForeign : Expr → Bool
  | .misplaced _ | .lacking _ _ => true
  | .binary _ operator _ => operator ∉ Operator.all
  | _ => false

/-- In the course of the work of the moment a node outside the language is evaluated. -/
def MeetsForeign (rounds : Nat) (moment : Moment) : Prop :=
  ∃ node depth machine, node.isForeign = true ∧
    Reaches rounds moment ⟨.evaluation node, depth, machine⟩

theorem MeetsForeign.of_starts {rounds : Nat} {moment next : Moment}
    (starts : Starts rounds moment next) (meets : MeetsForeign rounds next) :
    MeetsForeign rounds moment := by
  obtain ⟨node, depth, machine, foreign, reaches⟩ := meets
  exact ⟨node, depth, machine, foreign, reaches.head starts⟩

theorem meetsForeign_self {rounds depth : Nat} {node : Expr} (foreign : node.isForeign = true)
    (machine : Machine) : MeetsForeign rounds ⟨.evaluation node, depth, machine⟩ :=
  ⟨node, depth, machine, foreign, .refl⟩

end

def Stop.sparesTree : Stop → Bool
  | .fault cause => !cause.blamesTree
  | _ => true

theorem Stop.sparesTree_of_isOrdinary {stop : Stop} (ordinary : stop.isOrdinary = true) :
    stop.sparesTree = true := by
  cases stop with
  | fault cause => exact ordinary
  | _ => rfl

namespace Run

/-- If the run on the machine blames a tree, then there is such a culprit. -/
def Accuses {α : Type} (culprit : Prop) (run : Run α) (machine : Machine) : Prop :=
  ∀ stop, run.outcome machine = .error stop → stop.sparesTree = false → culprit

section

variable {α β : Type} {culprit other : Prop} {machine : Machine}

theorem Accuses.mono {run : Run α} (accuses : Accuses other run machine)
    (follows : other → culprit) : Accuses culprit run machine :=
  fun stop stopped blames => follows (accuses stop stopped blames)

theorem accuses_pure (found : α) : Accuses culprit (pure found) machine := by
  intro stop stopped
  cases stopped

theorem accuses_throw {signal : Stop} (spares : signal.sparesTree = true) :
    Accuses culprit (throw signal : Run α) machine := by
  intro stop stopped blames
  cases stopped
  rw [spares] at blames
  cases blames

abbrev NeverBlames (run : Run α) : Prop :=
  Keeps (fun _ => True) (fun _ => True) (fun stop => stop.sparesTree = true) run

theorem accuses_of_neverBlames {run : Run α} (never : NeverBlames run) :
    Accuses culprit run machine := by
  intro stop stopped blames
  have ends := (never machine trivial).2
  rw [stopped] at ends
  rw [show stop.sparesTree = true from ends] at blames
  cases blames

theorem Accuses.bind {first : Run α} {next : α → Run β} (accuses : Accuses culprit first machine)
    (accusesNext : ∀ found middle, first.run.run machine = (.ok found, middle) →
      Accuses culprit (next found) middle) : Accuses culprit (first >>= next) machine := by
  intro stop stopped blames
  cases ran : first.run.run machine with
  | mk ended middle =>
      cases ended with
      | ok found =>
          rw [outcome, run_bind_ok ran] at stopped
          exact accusesNext found middle ran stop stopped blames
      | error signal =>
          rw [outcome, run_bind_error ran] at stopped
          cases stopped
          exact accuses stop (by rw [outcome, ran]) blames

theorem accuses_discard {run : Run α} :
    Accuses culprit (discard run) machine ↔ Accuses culprit run machine := by
  constructor
  · intro accuses stop stopped
    apply accuses stop
    have ran : run.run.run machine = (.error stop, run.after machine) := Prod.ext stopped rfl
    exact congrArg Prod.fst (run_bind_error ran fun _ => pure ())
  · intro accuses
    exact accuses.bind fun _ _ _ => accuses_pure ()

theorem Accuses.inScope {entries : Entries Value} {body : Run α}
    (accuses : Accuses culprit body (machine.enter entries)) :
    Accuses culprit (inScope entries body) machine :=
  fun stop stopped => accuses stop stopped

theorem Accuses.round {entries : Entries Value} {body : Run Unit}
    (accuses : Accuses culprit body (machine.enter entries)) :
    Accuses culprit (round entries body) machine := by
  intro stop stopped blames
  rw [outcome_round] at stopped
  exact accuses.inScope stop (loopEnd_eq_error stopped).1 blames

theorem Accuses.returning {body : Run Unit} (accuses : Accuses culprit body machine) :
    Accuses culprit (returning body) machine := by
  intro stop stopped blames
  rw [outcome_returning] at stopped
  exact accuses stop (callEnd_eq_error stopped) blames

end

/-! Every part of a piece of work is at one of its moments, so a culprit of the part is one of the
whole. First the pieces that do not nest deeper, from the single expressions and statements. -/

variable [Limits]

section

variable {rounds depth : Nat}

/-- The items of a list, each of which evaluates an expression. -/
private theorem accuses_mapM {α β : Type} {step : α → Run β} {expression : α → Expr}
    (steps : ∀ item machine,
      Accuses (MeetsForeign rounds ⟨.evaluation (expression item), depth, machine⟩) (step item) machine)
    (evaluates : ∀ item machine found left, (step item).run.run machine = (.ok found, left) →
      ∃ value, (evaluate rounds depth (expression item)).run.run machine = (.ok value, left))
    (items : List α) (machine : Machine) :
    Accuses (MeetsForeign rounds ⟨.evaluations (items.map expression), depth, machine⟩)
      (items.mapM step) machine := by
  induction items generalizing machine with
  | nil => exact accuses_pure []
  | cons item rest ih =>
      rw [List.mapM_cons]
      refine ((steps item machine).mono (.of_starts .firstExpression)).bind ?_
      intro found middle ran
      obtain ⟨value, evaluated⟩ := evaluates item machine found middle ran
      refine ((ih middle).mono (.of_starts (.otherExpressions evaluated))).bind ?_
      intro others last _
      exact accuses_pure (found :: others)

variable (evaluates : ∀ expression machine,
    Accuses (MeetsForeign rounds ⟨.evaluation expression, depth, machine⟩)
      (evaluate rounds depth expression) machine)
  (executes : ∀ statement machine,
    Accuses (MeetsForeign rounds ⟨.execution statement, depth, machine⟩)
      (execute rounds depth statement) machine)

include evaluates in
private theorem accuses_evaluations (expressions : List Expr) (machine : Machine) :
    Accuses (MeetsForeign rounds ⟨.evaluations expressions, depth, machine⟩)
      (expressions.mapM (evaluate rounds depth)) machine := by
  have accuses := accuses_mapM evaluates (fun _ _ found _ ran => ⟨found, ran⟩)
    expressions machine
  rwa [List.map_id'] at accuses

include evaluates in
private theorem accuses_fields (entries : List (String × Expr)) (machine : Machine) :
    Accuses (MeetsForeign rounds ⟨.evaluations (entries.map Prod.snd), depth, machine⟩)
      (entries.mapM fun entry => do
        let value ← evaluate rounds depth entry.2
        return (entry.1, value)) machine := by
  apply accuses_mapM
  · intro entry machine
    exact (evaluates entry.2 machine).bind fun _ _ _ => accuses_pure _
  · intro entry machine found left ran
    cases evaluated : (evaluate rounds depth entry.2).run.run machine with
    | mk ended middle =>
        cases ended with
        | ok value =>
            rw [run_bind_ok evaluated] at ran
            cases ran
            exact ⟨value, rfl⟩
        | error signal =>
            rw [run_bind_error evaluated] at ran
            cases ran

include executes in
private theorem accuses_executions (block : Block) (machine : Machine) :
    Accuses (MeetsForeign rounds ⟨.executions block, depth, machine⟩)
      (runBlock (execute rounds depth) block) machine := by
  induction block generalizing machine with
  | nil => exact accuses_pure ()
  | cons statement others ih =>
      refine ((executes statement machine).mono (.of_starts .firstStatement)).bind ?_
      intro _ middle ran
      exact (ih middle).mono (.of_starts (.otherStatements ran))

include evaluates executes in
private theorem accuses_choice (last : Block) (arms : List (Expr × Block)) (machine : Machine) :
    Accuses (MeetsForeign rounds ⟨.choice last arms, depth, machine⟩)
      (chooseArm (evaluate rounds depth) (runBlock (execute rounds depth)) last arms) machine := by
  induction arms generalizing machine with
  | nil => exact (accuses_executions executes last machine).mono (.of_starts .otherwise)
  | cons arm rest ih =>
      obtain ⟨condition, body⟩ := arm
      refine ((evaluates condition machine).mono (.of_starts .test)).bind ?_
      intro found middle ran
      cases holds : found.isTrue with
      | true => exact (accuses_executions executes body middle).mono (.of_starts (.taken ran holds))
      | false => exact (ih middle).mono (.of_starts (.passed ran holds))

include executes in
private theorem accuses_counting (name : String) (body : Block) (start left : Nat)
    (machine : Machine) :
    Accuses (MeetsForeign rounds ⟨.counting name body start left, depth, machine⟩)
      (countUp (fun index => round [(name, .int index)] (runBlock (execute rounds depth) body)) start
        left) machine := by
  induction left generalizing start machine with
  | zero => exact accuses_pure ()
  | succ left ih =>
      have inRound := accuses_executions executes body (machine.enter [(name, .int start)])
      refine (inRound.round.mono (.of_starts .countRound)).bind ?_
      intro goesOn middle ran
      cases goesOn with
      | true => exact (ih (start + 1) middle).mono (.of_starts (.countOn ran))
      | false => exact accuses_pure ()

include evaluates executes in
private theorem accuses_looping (condition : Expr) (body : Block) (left : Nat) (machine : Machine) :
    Accuses (MeetsForeign rounds ⟨.looping condition body left, depth, machine⟩)
      (whileTrue (evaluate rounds depth condition) (round [] (runBlock (execute rounds depth) body))
        left) machine := by
  induction left generalizing machine with
  | zero => exact accuses_throw rfl
  | succ left ih =>
      refine ((evaluates condition machine).mono (.of_starts .loopTest)).bind ?_
      intro found middle ran
      cases holds : found.isTrue with
      | false => exact accuses_pure ()
      | true =>
          have inRound := accuses_executions executes body (middle.enter [])
          refine (inRound.round.mono (.of_starts (.loopRound ran holds))).bind ?_
          intro goesOn last ranRound
          cases goesOn with
          | true => exact (ih last).mono (.of_starts (.loopOn ran holds ranRound))
          | false => exact accuses_pure ()

/-! Then one level of an expression and of a statement. -/

include evaluates executes in
private theorem accuses_evaluate_succ (expression : Expr) (machine : Machine) :
    Accuses (MeetsForeign rounds ⟨.evaluation expression, depth + 1, machine⟩)
      (evaluate rounds (depth + 1) expression) machine := by
  have finds : ∀ name, NeverBlames (lookup name) :=
    fun name => Keeps.lookup (fun _ _ _ _ => trivial) rfl
  cases expression with
  | literal value => exact accuses_pure _
  | «variable» name => exact accuses_of_neverBlames (finds name)
  | binary left operator right =>
      -- an unknown operator makes the node itself the culprit
      by_cases known : operator ∈ Operator.all
      · refine ((evaluates left machine).mono (.of_starts .left)).bind ?_
        intro leftValue middle ran
        refine ((evaluates right middle).mono (.of_starts (.right ran))).bind ?_
        intro rightValue last _
        apply accuses_of_neverBlames
        apply Keeps.operate (fun _ _ => trivial) (fun _ _ => trivial)
        intro cause failed
        exact Stop.sparesTree_of_isOrdinary
          (Stop.isOrdinary_fault (Operator.sparesTree_apply known leftValue rightValue cause failed))
      · intro _ _ _
        have foreign : (Expr.binary left operator right).isForeign = true := decide_eq_true known
        exact meetsForeign_self foreign machine
  | table entries =>
      refine ((accuses_fields evaluates entries machine).mono (.of_starts .fields)).bind ?_
      intro fields middle _
      exact accuses_of_neverBlames (Keeps.newIdentity.bind fun _ _ => Keeps.pure trivial)
  | call callee arguments =>
      intro stop stopped blames
      cases found : find? callee machine.scopes with
      | none =>
          rw [outcome, evaluate, run_bind_error (run_lookup_none found)] at stopped
          cases stopped
          cases blames
      | some value =>
          rw [outcome, evaluate, run_bind_ok (run_lookup_some found)] at stopped
          refine ((accuses_evaluations evaluates arguments machine).mono
            (.of_starts (.arguments found))).bind ?_ stop stopped blames
          intro values middle evaluated
          cases value with
          | function identity parameters body =>
              have inBody := accuses_executions executes body
                (middle.enter (Entries.ofPairs (parameters.zip values)))
              exact inBody.returning.inScope.mono (.of_starts (.called found evaluated))
          | _ =>
              apply accuses_of_neverBlames
              exact Keeps.callNamed (fun _ _ _ same => by cases same) (fun _ _ => trivial)
                (fun _ _ => trivial) fun _ => Stop.sparesTree_of_isOrdinary
  | misplaced sort =>
      intro _ _ _
      exact meetsForeign_self rfl machine
  | lacking sort part =>
      intro _ _ _
      exact meetsForeign_self rfl machine

include evaluates executes in
private theorem accuses_execute_succ (statement : Stmt) (machine : Machine) :
    Accuses (MeetsForeign rounds ⟨.execution statement, depth + 1, machine⟩)
      (execute rounds (depth + 1) statement) machine := by
  cases statement with
  | print arguments =>
      refine ((accuses_evaluations evaluates arguments machine).mono (.of_starts .printed)).bind ?_
      intro values middle _
      have printers : NeverBlames (lookupGlobal "printline") := Keeps.lookupGlobal rfl
      apply accuses_of_neverBlames
      apply printers.bind
      intro printer _
      exact Keeps.printWith printer values fun _ => Stop.sparesTree_of_isOrdinary
  | assign name value =>
      refine ((evaluates value machine).mono (.of_starts .assigned)).bind ?_
      intro found middle _
      exact accuses_of_neverBlames (Keeps.assign fun _ _ => trivial)
  | branch condition body arms otherwise =>
      exact (accuses_choice evaluates executes _ _ machine).mono (.of_starts .branch)
  | count name limit body =>
      refine ((evaluates limit machine).mono (.of_starts .limit)).bind ?_
      intro found middle ran
      cases bounded : found.integer? with
      | none => exact accuses_throw rfl
      | some bound =>
          exact (accuses_counting executes name body 0 bound.toNat middle).mono
            (.of_starts (.count ran bounded))
  | loop condition body =>
      exact (accuses_looping evaluates executes condition body rounds machine).mono (.of_starts .loop)
  | leave => exact accuses_throw rfl
  | next => exact accuses_throw rfl
  | define name parameters body =>
      exact accuses_of_neverBlames (Keeps.newIdentity.bind fun _ _ => Keeps.assign fun _ _ => trivial)
  | result value =>
      cases value with
      | none => exact accuses_throw rfl
      | some value =>
          refine ((evaluates value machine).mono (.of_starts .result)).bind ?_
          intro found middle _
          exact accuses_throw rfl
  | load library => exact accuses_of_neverBlames (Keeps.load library fun _ _ _ _ _ _ => trivial)
  | evaluate value =>
      exact accuses_discard.mpr ((evaluates value machine).mono (.of_starts .evaluated))

end

private theorem accuses_evaluate_and_execute (rounds depth : Nat) :
    (∀ expression machine, Accuses (MeetsForeign rounds ⟨.evaluation expression, depth, machine⟩)
      (evaluate rounds depth expression) machine) ∧
    ∀ statement machine, Accuses (MeetsForeign rounds ⟨.execution statement, depth, machine⟩)
      (execute rounds depth statement) machine := by
  induction depth with
  | zero => exact ⟨fun _ _ => accuses_throw rfl, fun _ _ => accuses_throw rfl⟩
  | succ depth ih =>
      exact ⟨accuses_evaluate_succ ih.1 ih.2, accuses_execute_succ ih.1 ih.2⟩

/-- If work on a machine ends with a fault that blames the tree, a node outside the language is
evaluated in the course of it. -/
theorem meetsForeign_of_blamesTree {rounds : Nat} {moment : Moment} {cause : Fault}
    (failed : moment.outcome rounds = .error (.fault cause)) (blames : cause.blamesTree = true) :
    MeetsForeign rounds moment := by
  obtain ⟨work, depth, machine⟩ := moment
  obtain ⟨evaluates, executes⟩ := accuses_evaluate_and_execute rounds depth
  have spares : (Stop.fault cause).sparesTree = false := by
    rw [Stop.sparesTree, blames]
    rfl
  refine (?_ : Accuses _ (work.run rounds depth) machine) _ failed spares
  cases work with
  | evaluation expression => exact accuses_discard.mpr (evaluates expression machine)
  | evaluations expressions =>
      exact accuses_discard.mpr (accuses_evaluations evaluates expressions machine)
  | execution statement => exact executes statement machine
  | executions block => exact accuses_executions executes block machine
  | choice last arms => exact accuses_choice evaluates executes last arms machine
  | counting name body start left => exact accuses_counting executes name body start left machine
  | looping condition body left => exact accuses_looping evaluates executes condition body left machine

end Run

end IndentScript
