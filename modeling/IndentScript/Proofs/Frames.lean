import IndentScript.Proofs.Runs

/-!
What a run can change. An expression changes no scope, whatever functions it calls, and a statement
changes the innermost scope at most. A loop and a call have scopes of their own, so that all they
assign is gone at their end; this holds however they end.
-/

namespace IndentScript

namespace Run

def SameOuter (before after : Scopes) : Prop :=
  after.tail = before.tail ∧ after.length = before.length

theorem SameOuter.assigned {before after : Scopes} (same : SameOuter before after) (name : String)
    (value : Value) : SameOuter before (assigned name value after) := by
  cases after with
  | nil => exact same
  | cons scope outer => exact same

abbrev Preserves {α : Type} (held : Scopes → Prop) (run : Run α) : Prop :=
  Keeps held (fun _ => True) (fun _ => True) run

abbrev Unchanging {α : Type} (run : Run α) : Prop :=
  ∀ scopes, Preserves (fun left => left = scopes) run

section

variable {run : Stmt → Run Unit}

theorem preserves_runBlock {held : Scopes → Prop}
    (statements : ∀ statement, Preserves held (run statement)) (block : Block) :
    Preserves held (runBlock run block) :=
  Keeps.forM block fun statement _ => statements statement

/-- What runs in a scope of its own changes no other if each of its statements changes the
innermost scope at most. -/
theorem unchanging_inScope {α : Type} {body : Run α} (entries : Entries Value)
    (keeps : ∀ scopes, Preserves (SameOuter scopes) body) : Unchanging (inScope entries body) := by
  intro scopes
  apply Keeps.inScope _ _ (keeps (entries :: scopes))
  · rintro left rfl
    exact ⟨rfl, rfl⟩
  · intro left same
    rw [List.drop_one]
    exact same.1

theorem unchanging_round
    (statements : ∀ statement scopes, Preserves (SameOuter scopes) (run statement))
    (entries : Entries Value) (body : Block) : Unchanging (round entries (runBlock run body)) := by
  intro scopes
  apply Keeps.round _ _ (fun _ _ _ _ => trivial)
    (preserves_runBlock (fun statement => statements statement (entries :: scopes)) body)
  · rintro left rfl
    exact ⟨rfl, rfl⟩
  · intro left same
    rw [List.drop_one]
    exact same.1

theorem unchanging_callNamed [Limits]
    (statements : ∀ statement scopes, Preserves (SameOuter scopes) (run statement))
    (name : String) (callee : Value) (arguments : List Value) :
    Unchanging (callNamed run name callee arguments) := by
  intro scopes
  apply Keeps.callNamed _ (fun _ _ => trivial) (fun _ _ => trivial) (fun _ _ => trivial)
  intro identity parameters body _
  apply unchanging_inScope
  intro inner
  exact Keeps.returning trivial (fun _ _ => trivial) (fun _ _ _ => trivial)
    (preserves_runBlock (fun statement => statements statement inner) body)

end

/-! ### Expressions and statements -/

variable [Limits]

section

variable {rounds depth : Nat}

/-- One level of an expression, from the expressions and statements one level deeper. -/
private theorem unchanging_evaluate_succ
    (expressions : ∀ expression, Unchanging (evaluate rounds depth expression))
    (statements : ∀ statement scopes, Preserves (SameOuter scopes) (execute rounds depth statement))
    (expression : Expr) : Unchanging (evaluate rounds (depth + 1) expression) := by
  intro scopes
  cases expression with
  | literal value => exact Keeps.pure trivial
  | «variable» name => exact Keeps.lookup (fun _ _ _ _ => trivial) trivial
  | binary left operator right =>
      apply (expressions left scopes).bind
      intro leftValue _
      apply (expressions right scopes).bind
      intro rightValue _
      exact Keeps.operate (fun _ _ => trivial) (fun _ _ => trivial) fun _ _ => trivial
  | table entries =>
      have fields := Keeps.mapM entries fun entry _ =>
        (expressions entry.2 scopes).bind fun value _ =>
          (Keeps.pure trivial : Preserves (fun left => left = scopes) (pure (entry.1, value)))
      apply fields.bind
      intro found _
      exact Keeps.newIdentity.bind fun identity _ => Keeps.pure trivial
  | call callee arguments =>
      have found : Preserves (fun left => left = scopes) (lookup callee) :=
        Keeps.lookup (fun _ _ _ _ => trivial) trivial
      apply found.bind
      intro value _
      apply (Keeps.mapM arguments fun argument _ => expressions argument scopes).bind
      intro values _
      exact unchanging_callNamed statements callee value values scopes
  | misplaced sort => exact Keeps.fail trivial
  | lacking sort part => exact Keeps.fail trivial

private theorem unchanging_count
    (expressions : ∀ expression, Unchanging (evaluate rounds depth expression))
    (statements : ∀ statement scopes, Preserves (SameOuter scopes) (execute rounds depth statement))
    (name : String) (limit : Expr) (body : Block) :
    Unchanging (execute rounds (depth + 1) (.count name limit body)) := by
  intro scopes
  apply (expressions limit scopes).bind
  intro value _
  cases value.integer? with
  | none => exact Keeps.fail trivial
  | some bound =>
      exact Keeps.countUp _ 0 fun index =>
        unchanging_round statements [(name, .int index)] body scopes

private theorem unchanging_loop
    (expressions : ∀ expression, Unchanging (evaluate rounds depth expression))
    (statements : ∀ statement scopes, Preserves (SameOuter scopes) (execute rounds depth statement))
    (test : Expr) (body : Block) :
    Unchanging (execute rounds (depth + 1) (.loop test body)) := by
  intro scopes
  exact Keeps.whileTrue rounds trivial (expressions test scopes)
    (unchanging_round statements [] body scopes)

private theorem preserves_execute_succ
    (expressions : ∀ expression, Unchanging (evaluate rounds depth expression))
    (statements : ∀ statement scopes, Preserves (SameOuter scopes) (execute rounds depth statement))
    (statement : Stmt) (scopes : Scopes) :
    Preserves (SameOuter scopes) (execute rounds (depth + 1) statement) := by
  have evaluates : ∀ expression, Preserves (SameOuter scopes) (evaluate rounds depth expression) :=
    fun expression => Keeps.of_unchanged (expressions expression)
  have assigns : ∀ name value, Preserves (SameOuter scopes) (assign name value) :=
    fun name value => Keeps.assign fun left same => same.assigned name value
  have runs := preserves_runBlock fun statement => statements statement scopes
  cases statement with
  | print arguments =>
      apply (Keeps.mapM arguments fun argument _ => evaluates argument).bind
      intro values _
      have printers : Preserves (SameOuter scopes) (lookupGlobal "printline") :=
        Keeps.lookupGlobal trivial
      apply printers.bind
      intro printer _
      exact Keeps.printWith printer values fun _ _ => trivial
  | assign name value => exact (evaluates value).bind fun result _ => assigns name result
  | branch condition body arms otherwise =>
      exact Keeps.chooseArm _ (fun arm _ => evaluates arm.1) (fun arm _ => runs arm.2) (runs _)
  | count name limit body =>
      exact Keeps.of_unchanged (unchanging_count expressions statements name limit body)
  | loop test body => exact Keeps.of_unchanged (unchanging_loop expressions statements test body)
  | leave => exact Keeps.throw trivial
  | next => exact Keeps.throw trivial
  | define name parameters body =>
      exact Keeps.newIdentity.bind fun identity _ => assigns name _
  | result value =>
      cases value with
      | none => exact Keeps.throw trivial
      | some value => exact (evaluates value).bind fun result _ => Keeps.throw trivial
  | load library => exact Keeps.load library fun name _ value left _ same => same.assigned name value
  | evaluate value => exact (evaluates value).discard

end

/-- By induction on the depth, with expressions and statements together: the body of a function
that an expression calls is one level deeper. -/
theorem unchanging_and_preserves (rounds depth : Nat) :
    (∀ expression, Unchanging (evaluate rounds depth expression)) ∧
      ∀ statement scopes, Preserves (SameOuter scopes) (execute rounds depth statement) := by
  induction depth with
  | zero => exact ⟨fun _ _ => Keeps.fail trivial, fun _ _ => Keeps.fail trivial⟩
  | succ depth ih =>
      exact ⟨unchanging_evaluate_succ ih.1 ih.2, preserves_execute_succ ih.1 ih.2⟩

omit [Limits] in
theorem Unchanging.scopes_after {α : Type} {run : Run α} (unchanging : Unchanging run)
    (machine : Machine) : (run.after machine).scopes = machine.scopes :=
  (unchanging machine.scopes machine rfl).1

omit [Limits] in
theorem Unchanging.scopes_of_run {α : Type} {run : Run α} (unchanging : Unchanging run)
    {machine left : Machine} {ended : Except Stop α} (ran : run.run.run machine = (ended, left)) :
    left.scopes = machine.scopes := by
  have same := unchanging.scopes_after machine
  rwa [after, ran] at same

theorem unchanging_evaluate (rounds depth : Nat) (expression : Expr) :
    Unchanging (evaluate rounds depth expression) :=
  (unchanging_and_preserves rounds depth).1 expression

theorem preserves_execute (rounds depth : Nat) (statement : Stmt) (scopes : Scopes) :
    Preserves (SameOuter scopes) (execute rounds depth statement) :=
  (unchanging_and_preserves rounds depth).2 statement scopes

theorem unchanging_execute_evaluate (rounds depth : Nat) (value : Expr) :
    Unchanging (execute rounds depth (.evaluate value)) := by
  cases depth with
  | zero => exact fun _ => Keeps.fail trivial
  | succ depth => exact fun scopes => (unchanging_evaluate rounds depth value scopes).discard

theorem unchanging_execute_count (rounds depth : Nat) (name : String) (limit : Expr)
    (body : Block) : Unchanging (execute rounds depth (.count name limit body)) := by
  cases depth with
  | zero => exact fun _ => Keeps.fail trivial
  | succ depth =>
      exact unchanging_count (unchanging_evaluate rounds depth) (preserves_execute rounds depth)
        name limit body

theorem unchanging_execute_loop (rounds depth : Nat) (test : Expr) (body : Block) :
    Unchanging (execute rounds depth (.loop test body)) := by
  cases depth with
  | zero => exact fun _ => Keeps.fail trivial
  | succ depth =>
      exact unchanging_loop (unchanging_evaluate rounds depth) (preserves_execute rounds depth) test
        body

theorem unchanging_execute_print (rounds depth : Nat) (arguments : List Expr) :
    Unchanging (execute rounds depth (.print arguments)) := by
  intro scopes
  cases depth with
  | zero => exact Keeps.fail trivial
  | succ depth =>
      apply (Keeps.mapM arguments fun argument _ =>
        unchanging_evaluate rounds depth argument scopes).bind
      intro values _
      have printers : Preserves (fun left => left = scopes) (lookupGlobal "printline") :=
        Keeps.lookupGlobal trivial
      apply printers.bind
      intro printer _
      exact Keeps.printWith printer values fun _ _ => trivial

/-- However it ends, an expression leaves every scope as it was, and a statement every scope but the
innermost one. Loops and calls leave that one as it was, too: neither a round of a loop nor the
body of a function can change a variable of a scope around it. -/
theorem scopes_around_unchanged (rounds depth : Nat) (machine : Machine) :
    (∀ expression,
      ((evaluate rounds depth expression).after machine).scopes = machine.scopes) ∧
    (∀ statement,
      SameOuter machine.scopes ((execute rounds depth statement).after machine).scopes) ∧
    (∀ name limit body,
      ((execute rounds depth (.count name limit body)).after machine).scopes = machine.scopes) ∧
    (∀ test body,
      ((execute rounds depth (.loop test body)).after machine).scopes = machine.scopes) ∧
    (∀ callee arguments,
      ((execute rounds depth (.evaluate (.call callee arguments))).after machine).scopes =
        machine.scopes) ∧
    (∀ name callee arguments,
      ((callNamed (execute rounds depth) name callee arguments).after machine).scopes =
        machine.scopes) ∧
    ∀ entries body,
      ((round entries (runBlock (execute rounds depth) body)).after machine).scopes =
        machine.scopes := by
  refine ⟨?_, ?_, ?_, ?_, ?_, ?_, ?_⟩
  · intro expression
    exact (unchanging_evaluate rounds depth expression).scopes_after machine
  · intro statement
    exact (preserves_execute rounds depth statement machine.scopes machine ⟨rfl, rfl⟩).1
  · intro name limit body
    exact (unchanging_execute_count rounds depth name limit body).scopes_after machine
  · intro test body
    exact (unchanging_execute_loop rounds depth test body).scopes_after machine
  · intro callee arguments
    exact (unchanging_execute_evaluate rounds depth (.call callee arguments)).scopes_after machine
  · intro name callee arguments
    exact (unchanging_callNamed (preserves_execute rounds depth) name callee
      arguments).scopes_after machine
  · intro entries body
    exact (unchanging_round (preserves_execute rounds depth) entries body).scopes_after machine

end Run

end IndentScript
