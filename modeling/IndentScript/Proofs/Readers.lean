import IndentScript.Proofs.TerminalSessions

/-!
Who takes the lines off the input. In a program that is done by the calls of one service, and by
nothing else: the lines that a piece of work takes off the input are those that the calls in it find,
in the order of the calls.
-/

namespace IndentScript

inductive Reader where
  /-- The dialog at a prompt. -/
  | prompt (terminal : Terminal)
  /-- The call at the moment, whose arguments have left the machine. -/
  | call (moment : Moment) (machine : Machine)

def Reader.line? : Reader → Option (Option String)
  | .prompt terminal => terminal.machine.console.input.head?
  | .call _ machine => machine.console.input.head?

/-! ### Calls that read -/

open Run

def onward {α β : Type} (next : α → Machine → List β) : Except Stop α × Machine → List β
  | (.ok found, middle) => next found middle
  | (.error _, _) => []

theorem onward_nil {α β : Type} (ran : Except Stop α × Machine) :
    onward (fun _ _ => ([] : List β)) ran = [] := by
  obtain ⟨ended, left⟩ := ran
  cases ended with
  | ok found => rfl
  | error signal => rfl

/-- Work of a higher level is made of work of lower levels at the same depth. -/
def Work.level : Work → Nat
  | .evaluation _ | .execution _ => 0
  | .evaluations _ | .executions _ => 1
  | .choice _ _ | .counting _ _ _ _ | .looping _ _ _ => 2

def Work.size : Work → Nat
  | .evaluation _ | .execution _ => 0
  | .evaluations expressions => expressions.length
  | .executions block => block.length
  | .choice _ arms => arms.length
  | .counting _ _ _ left | .looping _ _ left => left

/-- The calls that look for a line in the course of the work of the moment, in order. -/
def Moment.readers [Limits] (rounds : Nat) : Moment → List Reader
  | ⟨.evaluation (.binary left _ right), depth + 1, machine⟩ =>
    readers rounds ⟨.evaluation left, depth, machine⟩ ++
      onward (fun _ middle => readers rounds ⟨.evaluation right, depth, middle⟩)
        ((evaluate rounds depth left).run.run machine)
  | ⟨.evaluation (.table entries), depth + 1, machine⟩ =>
    readers rounds ⟨.evaluations (entries.map Prod.snd), depth, machine⟩
  | ⟨.evaluation (.call callee arguments), depth + 1, machine⟩ =>
    match find? callee machine.scopes with
    | none => []
    | some value =>
      readers rounds ⟨.evaluations arguments, depth, machine⟩ ++
        onward (fun values middle =>
          match value with
          | .function _ parameters body =>
            readers rounds
              ⟨.executions body, depth, middle.enter (Entries.ofPairs (parameters.zip values))⟩
          | .service _ .readLine =>
            [.call ⟨.evaluation (.call callee arguments), depth + 1, machine⟩ middle]
          | _ => [])
          ((arguments.mapM (evaluate rounds depth)).run.run machine)
  | ⟨.evaluation _, _, _⟩ => []
  | ⟨.evaluations [], _, _⟩ => []
  | ⟨.evaluations (expression :: others), depth, machine⟩ =>
    readers rounds ⟨.evaluation expression, depth, machine⟩ ++
      onward (fun _ middle => readers rounds ⟨.evaluations others, depth, middle⟩)
        ((evaluate rounds depth expression).run.run machine)
  | ⟨.execution (.print arguments), depth + 1, machine⟩ =>
    readers rounds ⟨.evaluations arguments, depth, machine⟩
  | ⟨.execution (.assign _ value), depth + 1, machine⟩ =>
    readers rounds ⟨.evaluation value, depth, machine⟩
  | ⟨.execution (.branch condition body arms otherwise), depth + 1, machine⟩ =>
    readers rounds ⟨.choice (otherwise.getD []) ((condition, body) :: arms), depth, machine⟩
  | ⟨.execution (.count name limit body), depth + 1, machine⟩ =>
    readers rounds ⟨.evaluation limit, depth, machine⟩ ++
      onward (fun found middle =>
        match found.integer? with
        | some bound => readers rounds ⟨.counting name body 0 bound.toNat, depth, middle⟩
        | none => [])
        ((evaluate rounds depth limit).run.run machine)
  | ⟨.execution (.loop condition body), depth + 1, machine⟩ =>
    readers rounds ⟨.looping condition body rounds, depth, machine⟩
  | ⟨.execution (.result (some value)), depth + 1, machine⟩ =>
    readers rounds ⟨.evaluation value, depth, machine⟩
  | ⟨.execution (.evaluate value), depth + 1, machine⟩ =>
    readers rounds ⟨.evaluation value, depth, machine⟩
  | ⟨.execution _, _, _⟩ => []
  | ⟨.executions [], _, _⟩ => []
  | ⟨.executions (statement :: others), depth, machine⟩ =>
    readers rounds ⟨.execution statement, depth, machine⟩ ++
      onward (fun _ middle => readers rounds ⟨.executions others, depth, middle⟩)
        ((execute rounds depth statement).run.run machine)
  | ⟨.choice otherwise [], depth, machine⟩ => readers rounds ⟨.executions otherwise, depth, machine⟩
  | ⟨.choice otherwise ((condition, body) :: arms), depth, machine⟩ =>
    readers rounds ⟨.evaluation condition, depth, machine⟩ ++
      onward (fun found middle =>
        if found.isTrue then readers rounds ⟨.executions body, depth, middle⟩
        else readers rounds ⟨.choice otherwise arms, depth, middle⟩)
        ((evaluate rounds depth condition).run.run machine)
  | ⟨.counting _ _ _ 0, _, _⟩ => []
  | ⟨.counting name body start (left + 1), depth, machine⟩ =>
    readers rounds ⟨.executions body, depth, machine.enter [(name, .int start)]⟩ ++
      onward (fun goesOn middle =>
        if goesOn then readers rounds ⟨.counting name body (start + 1) left, depth, middle⟩ else [])
        ((round [(name, .int start)] (runBlock (execute rounds depth) body)).run.run machine)
  | ⟨.looping _ _ 0, _, _⟩ => []
  | ⟨.looping condition body (left + 1), depth, machine⟩ =>
    readers rounds ⟨.evaluation condition, depth, machine⟩ ++
      onward (fun found middle =>
        if found.isTrue then
          readers rounds ⟨.executions body, depth, middle.enter []⟩ ++
            onward (fun goesOn last =>
              if goesOn then readers rounds ⟨.looping condition body left, depth, last⟩ else [])
              ((round [] (runBlock (execute rounds depth) body)).run.run middle)
        else [])
        ((evaluate rounds depth condition).run.run machine)
termination_by moment => (moment.depth, moment.work.level, moment.work.size)
decreasing_by all_goals simp [Prod.lex_def, Work.level, Work.size]

namespace Run

section

variable {α β : Type}

def Silent (run : Run α) : Prop :=
  ∀ machine, (run.after machine).console.input = machine.console.input

theorem silent_pure (found : α) : Silent (pure found) :=
  fun _ => rfl

theorem silent_throw (signal : Stop) : Silent (throw signal : Run α) :=
  fun _ => rfl

theorem silent_ofExcept (computed : Except Fault α) : Silent (ofExcept computed) := by
  cases computed with
  | ok found => exact silent_pure found
  | error cause => exact silent_throw (.fault cause)

theorem Silent.bind {first : Run α} {next : α → Run β} (silent : Silent first)
    (silentNext : ∀ found, Silent (next found)) : Silent (first >>= next) := by
  intro machine
  have same := silent machine
  rw [after] at same ⊢
  cases ran : first.run.run machine with
  | mk ended middle =>
      rw [ran] at same
      cases ended with
      | ok found =>
          rw [run_bind_ok ran]
          exact (silentNext found middle).trans same
      | error signal =>
          rw [run_bind_error ran]
          exact same

theorem Silent.forM {step : α → Run Unit} (silent : ∀ item, Silent (step item)) (items : List α) :
    Silent (items.forM step) := by
  induction items with
  | nil => exact silent_pure ()
  | cons item rest ih => exact (silent item).bind fun _ => ih

theorem silent_newIdentity : Silent newIdentity :=
  fun _ => rfl

theorem silent_assign (name : String) (value : Value) : Silent (assign name value) :=
  fun _ => rfl

theorem silent_lookup (name : String) : Silent (lookup name) := by
  intro machine
  rw [after, lookup, run_get_bind]
  cases find? name machine.scopes with
  | some value => rfl
  | none => rfl

theorem silent_operate [Limits] (operator : Operator) (left right : Value) :
    Silent (operate operator left right) := by
  apply (silent_ofExcept (operator.apply left right)).bind
  intro value
  have distinguished : Silent (distinguish value) := by
    unfold distinguish
    split
    · exact silent_newIdentity.bind fun _ => silent_pure _
    · exact silent_pure _
  split
  · exact silent_pure value
  · exact silent_pure value
  · exact distinguished

theorem silent_load (library : String) : Silent (load library) := by
  unfold load
  split
  · apply silent_newIdentity.bind
    intro clock
    apply (silent_assign _ _).bind
    intro _
    apply silent_newIdentity.bind
    intro sleep
    exact silent_assign _ _
  · exact silent_pure ()

theorem silent_printLine [Limits] (values : List Value) : Silent (printLine values) := by
  have printed : ∀ value, Silent (printValue value) :=
    fun value => (silent_ofExcept value.shown).bind fun _ _ => rfl
  exact (Silent.forM printed values).bind fun _ _ => rfl

theorem silent_perform [Limits] {service : Service} (other : service ≠ .readLine)
    (arguments : List Value) :
    Silent (perform service arguments) := by
  cases service with
  | print => exact (silent_printLine arguments).bind fun _ => silent_pure _
  | range =>
      rcases arguments with _ | ⟨value, _ | ⟨second, others⟩⟩
      · exact silent_throw _
      · exact silent_pure value
      · exact silent_throw _
  | readLine => exact absurd rfl other
  | clock => exact fun _ => rfl
  | sleep =>
      have slept : Silent (sleep (arguments.headD (.int 1))) :=
        (silent_ofExcept _).bind fun _ _ => rfl
      exact slept.bind fun _ => silent_pure _

/-! ### What runs take off the input -/

/-- The run takes those lines off the input that the readers find. -/
def Reads (readers : List Reader) (run : Run α) (machine : Machine) : Prop :=
  machine.console.input = readers.filterMap Reader.line? ++ (run.after machine).console.input

variable {machine : Machine} {readers : List Reader}

theorem Silent.reads {run : Run α} (silent : Silent run) : Reads [] run machine :=
  (silent machine).symm

theorem Reads.bind {first : Run α} {next : α → Run β} {others : α → Machine → List Reader}
    (reads : Reads readers first machine)
    (readsNext : ∀ found middle, first.run.run machine = (.ok found, middle) →
      Reads (others found middle) (next found) middle) :
    Reads (readers ++ onward others (first.run.run machine)) (first >>= next) machine := by
  rw [Reads, after] at reads ⊢
  cases ran : first.run.run machine with
  | mk ended middle =>
      rw [ran] at reads
      cases ended with
      | ok found =>
          have later := readsNext found middle ran
          rw [Reads] at later
          rw [run_bind_ok ran, onward, List.filterMap_append, List.append_assoc]
          rw [reads, later]
          rfl
      | error signal =>
          rw [run_bind_error ran, onward, List.append_nil]
          exact reads

theorem Reads.bind_silent {first : Run α} {next : α → Run β} (reads : Reads readers first machine)
    (silent : ∀ found, Silent (next found)) : Reads readers (first >>= next) machine := by
  have whole : Reads (readers ++ onward (fun _ _ => []) (first.run.run machine)) (first >>= next)
      machine := reads.bind fun found _ _ => (silent found).reads
  rw [onward_nil, List.append_nil] at whole
  exact whole

theorem Reads.of_ran {first : Run α} {next : α → Run β} {found : α}
    (ran : first.run.run machine = (.ok found, machine)) (reads : Reads readers (next found) machine) :
    Reads readers (first >>= next) machine := by
  rw [Reads, after, run_bind_ok ran]
  exact reads

theorem Reads.discard {run : Run α} (reads : Reads readers run machine) :
    Reads readers (discard run) machine :=
  reads.bind_silent fun _ => silent_pure _

theorem Reads.inScope {entries : Entries Value} {body : Run α}
    (reads : Reads readers body (machine.enter entries)) :
    Reads readers (inScope entries body) machine :=
  reads

theorem Reads.round {entries : Entries Value} {body : Run Unit}
    (reads : Reads readers body (machine.enter entries)) :
    Reads readers (round entries body) machine := by
  rw [Reads, after, run_round]
  exact reads.inScope

theorem Reads.returning {body : Run Unit} (reads : Reads readers body machine) :
    Reads readers (returning body) machine := by
  rw [Reads, after, run_returning]
  exact reads

theorem reads_readLine (moment : Moment) (machine : Machine) :
    Reads [.call moment machine] readLine machine := by
  rw [Reads, after, readLine, run_get_bind]
  cases input : machine.console.input with
  | nil =>
      have nothing : Reader.line? (.call moment machine) = none := by rw [Reader.line?, input]; rfl
      rw [List.filterMap_cons_none nothing]
      exact input.symm
  | cons line rest =>
      have found : Reader.line? (.call moment machine) = some line := by rw [Reader.line?, input]; rfl
      rw [List.filterMap_cons_some found]
      cases line with
      | none => rfl
      | some text => rfl

end

/-! First the pieces that do not nest deeper, from the single expressions and statements. All are in
order, so that printing reads no line. -/

variable [Limits]

section

variable {rounds depth : Nat}

variable (evaluates : ∀ expression machine, Moment.InOrder ⟨.evaluation expression, depth, machine⟩ →
    Reads (Moment.readers rounds ⟨.evaluation expression, depth, machine⟩)
      (evaluate rounds depth expression) machine)
  (executes : ∀ statement machine, Moment.InOrder ⟨.execution statement, depth, machine⟩ →
    Reads (Moment.readers rounds ⟨.execution statement, depth, machine⟩)
      (execute rounds depth statement) machine)

include evaluates in
/-- The items of a list, from each of which a value is made. -/
private theorem reads_mapM {α β : Type} (expression : α → Expr) (make : α → Value → β)
    (items : List α) {machine : Machine}
    (order : Moment.InOrder ⟨.evaluations (items.map expression), depth, machine⟩) :
    Reads (Moment.readers rounds ⟨.evaluations (items.map expression), depth, machine⟩)
      (items.mapM fun item => do
        let value ← evaluate rounds depth (expression item)
        return make item value) machine := by
  induction items generalizing machine with
  | nil =>
      rw [List.map_nil, Moment.readers]
      exact (silent_pure []).reads
  | cons item rest ih =>
      rw [List.map_cons] at order ⊢
      rw [Moment.readers]
      simp only [List.mapM_cons, bind_assoc, pure_bind]
      apply (evaluates _ machine (order.starts rounds .firstExpression)).bind
      intro value middle ran
      exact (ih (order.starts rounds (.otherExpressions ran))).bind_silent fun _ => silent_pure _

include evaluates in
private theorem reads_evaluations (expressions : List Expr) {machine : Machine}
    (order : Moment.InOrder ⟨.evaluations expressions, depth, machine⟩) :
    Reads (Moment.readers rounds ⟨.evaluations expressions, depth, machine⟩)
      (expressions.mapM (evaluate rounds depth)) machine := by
  have reads := reads_mapM evaluates id (fun _ value => value) expressions
    (by rw [List.map_id]; exact order)
  simp only [List.map_id, bind_pure] at reads
  exact reads

include executes in
private theorem reads_executions (block : Block) {machine : Machine}
    (order : Moment.InOrder ⟨.executions block, depth, machine⟩) :
    Reads (Moment.readers rounds ⟨.executions block, depth, machine⟩)
      (runBlock (execute rounds depth) block) machine := by
  induction block generalizing machine with
  | nil =>
      rw [Moment.readers]
      exact (silent_pure ()).reads
  | cons statement others ih =>
      rw [Moment.readers]
      apply (executes statement machine (order.starts rounds .firstStatement)).bind
      intro _ middle ran
      exact ih (order.starts rounds (.otherStatements ran))

include evaluates executes in
private theorem reads_choice (last : Block) (arms : List (Expr × Block)) {machine : Machine}
    (order : Moment.InOrder ⟨.choice last arms, depth, machine⟩) :
    Reads (Moment.readers rounds ⟨.choice last arms, depth, machine⟩)
      (chooseArm (evaluate rounds depth) (runBlock (execute rounds depth)) last arms) machine := by
  induction arms generalizing machine with
  | nil =>
      rw [Moment.readers]
      exact reads_executions executes last (order.starts rounds .otherwise)
  | cons arm rest ih =>
      obtain ⟨condition, body⟩ := arm
      rw [Moment.readers]
      apply (evaluates condition machine (order.starts rounds .test)).bind
      intro found middle ran
      cases holds : found.isTrue with
      | true => exact reads_executions executes body (order.starts rounds (.taken ran holds))
      | false => exact ih (order.starts rounds (.passed ran holds))

include executes in
private theorem reads_counting (name : String) (body : Block) (start left : Nat) {machine : Machine}
    (order : Moment.InOrder ⟨.counting name body start left, depth, machine⟩) :
    Reads (Moment.readers rounds ⟨.counting name body start left, depth, machine⟩)
      (countUp (fun index => round [(name, .int index)] (runBlock (execute rounds depth) body)) start
        left) machine := by
  induction left generalizing start machine with
  | zero =>
      rw [Moment.readers]
      exact (silent_pure ()).reads
  | succ left ih =>
      rw [Moment.readers]
      have inRound := reads_executions executes body (order.starts rounds .countRound)
      apply inRound.round.bind
      intro goesOn middle ran
      cases goesOn with
      | true => exact ih (start + 1) (order.starts rounds (.countOn ran))
      | false => exact (silent_pure ()).reads

include evaluates executes in
private theorem reads_looping (condition : Expr) (body : Block) (left : Nat) {machine : Machine}
    (order : Moment.InOrder ⟨.looping condition body left, depth, machine⟩) :
    Reads (Moment.readers rounds ⟨.looping condition body left, depth, machine⟩)
      (whileTrue (evaluate rounds depth condition) (round [] (runBlock (execute rounds depth) body))
        left) machine := by
  induction left generalizing machine with
  | zero =>
      simp only [Moment.readers]
      exact (silent_throw _).reads
  | succ left ih =>
      rw [Moment.readers]
      apply (evaluates condition machine (order.starts rounds .loopTest)).bind
      intro found middle ran
      cases holds : found.isTrue with
      | false => exact (silent_pure ()).reads
      | true =>
          have inRound := reads_executions executes body (order.starts rounds (.loopRound ran holds))
          apply inRound.round.bind
          intro goesOn last ranRound
          cases goesOn with
          | true => exact ih (order.starts rounds (.loopOn ran holds ranRound))
          | false => exact (silent_pure ()).reads

/-! Then one level of an expression and of a statement. -/

include evaluates executes in
private theorem reads_evaluate_succ (expression : Expr) {machine : Machine}
    (order : Moment.InOrder ⟨.evaluation expression, depth + 1, machine⟩) :
    Reads (Moment.readers rounds ⟨.evaluation expression, depth + 1, machine⟩)
      (evaluate rounds (depth + 1) expression) machine := by
  cases expression with
  | literal value =>
      simp only [Moment.readers]
      exact (silent_pure _).reads
  | «variable» name =>
      simp only [Moment.readers]
      exact (silent_lookup name).reads
  | binary left operator right =>
      rw [Moment.readers]
      apply (evaluates left machine (order.starts rounds .left)).bind
      intro leftValue middle ran
      apply (evaluates right middle (order.starts rounds (.right ran))).bind_silent
      exact fun rightValue => silent_operate operator leftValue rightValue
  | table entries =>
      rw [Moment.readers]
      have fields := reads_mapM evaluates Prod.snd (fun entry value => (entry.1, value)) entries
        (order.starts rounds .fields)
      apply fields.bind_silent
      exact fun _ => silent_newIdentity.bind fun _ => silent_pure _
  | call callee arguments =>
      rw [Moment.readers]
      cases found : find? callee machine.scopes with
      | none =>
          rw [Reads, after, evaluate, run_bind_error (run_lookup_none found)]
          rfl
      | some value =>
          apply Reads.of_ran (run_lookup_some found)
          apply (reads_evaluations evaluates arguments (order.starts rounds (.arguments found))).bind
          intro values middle evaluated
          cases value with
          | function identity parameters body =>
              have inBody := reads_executions executes body
                (order.starts rounds (.called found evaluated))
              exact inBody.returning.inScope
          | service identity service =>
              have others : service ≠ .readLine → Reads [] (perform service values) middle :=
                fun other => (silent_perform other values).reads
              cases service with
              | readLine => exact (reads_readLine _ middle).bind_silent fun _ => silent_pure _
              | print => exact others (by simp)
              | range => exact others (by simp)
              | clock => exact others (by simp)
              | sleep => exact others (by simp)
          | _ => exact (silent_throw _).reads
  | misplaced sort =>
      simp only [Moment.readers]
      exact (silent_throw _).reads
  | lacking sort part =>
      simp only [Moment.readers]
      exact (silent_throw _).reads

include evaluates executes in
private theorem reads_execute_succ (statement : Stmt) {machine : Machine}
    (order : Moment.InOrder ⟨.execution statement, depth + 1, machine⟩) :
    Reads (Moment.readers rounds ⟨.execution statement, depth + 1, machine⟩)
      (execute rounds (depth + 1) statement) machine := by
  cases statement with
  | print arguments =>
      rw [Moment.readers]
      have before := order.starts rounds .printed
      have reads := reads_evaluations evaluates arguments before
      cases ran : (arguments.mapM (evaluate rounds depth)).run.run machine with
      | mk ended middle =>
          rw [Reads, after, ran] at reads
          cases ended with
          | error signal =>
              rw [Reads, after, execute, run_bind_error ran]
              exact reads
          | ok values =>
              -- The arguments leave a machine in order, where the printer is the service that prints.
              obtain ⟨height, guarded⟩ := before.left rounds
              have left : Moment.left rounds ⟨.evaluations arguments, depth, machine⟩ = middle :=
                congrArg Prod.snd (run_bind_ok ran fun _ => pure ())
              rw [left] at guarded
              have printed : ((printLine values).run.run middle).2.console.input =
                  middle.console.input := silent_printLine values middle
              rw [Reads, after, run_print guarded.unclobbered ran, printed]
              exact reads
  | assign name value =>
      rw [Moment.readers]
      apply (evaluates value machine (order.starts rounds .assigned)).bind_silent
      exact fun found => silent_assign name found
  | branch condition body arms otherwise =>
      rw [Moment.readers]
      exact reads_choice evaluates executes _ _ (order.starts rounds .branch)
  | count name limit body =>
      rw [Moment.readers]
      apply (evaluates limit machine (order.starts rounds .limit)).bind
      intro found middle ran
      cases bounded : found.integer? with
      | none => exact (silent_throw _).reads
      | some bound =>
          exact reads_counting executes name body 0 bound.toNat (order.starts rounds (.count ran bounded))
  | loop condition body =>
      rw [Moment.readers]
      exact reads_looping evaluates executes condition body rounds (order.starts rounds .loop)
  | leave =>
      simp only [Moment.readers]
      exact (silent_throw _).reads
  | next =>
      simp only [Moment.readers]
      exact (silent_throw _).reads
  | define name parameters body =>
      simp only [Moment.readers]
      exact (silent_newIdentity.bind fun _ => silent_assign name _).reads
  | result value =>
      cases value with
      | none =>
          simp only [Moment.readers]
          exact (silent_throw _).reads
      | some value =>
          rw [Moment.readers]
          exact (evaluates value machine (order.starts rounds .result)).bind_silent fun _ => silent_throw _
  | load library =>
      simp only [Moment.readers]
      exact (silent_load library).reads
  | evaluate value =>
      rw [Moment.readers]
      exact (evaluates value machine (order.starts rounds .evaluated)).discard

end

/-- By induction on the depth, with expressions and statements together. -/
theorem reads_evaluate_and_execute (rounds depth : Nat) :
    (∀ expression machine, Moment.InOrder ⟨.evaluation expression, depth, machine⟩ →
      Reads (Moment.readers rounds ⟨.evaluation expression, depth, machine⟩)
        (evaluate rounds depth expression) machine) ∧
    ∀ statement machine, Moment.InOrder ⟨.execution statement, depth, machine⟩ →
      Reads (Moment.readers rounds ⟨.execution statement, depth, machine⟩)
        (execute rounds depth statement) machine := by
  induction depth with
  | zero =>
      constructor
      · intro expression machine _
        simp only [Moment.readers]
        exact (silent_throw _).reads
      · intro statement machine _
        simp only [Moment.readers]
        exact (silent_throw _).reads
  | succ depth ih =>
      constructor
      · intro expression machine order
        exact reads_evaluate_succ ih.1 ih.2 expression order
      · intro statement machine order
        exact reads_execute_succ ih.1 ih.2 statement order

end Run

open Run in
/-- The lines that the work of a moment in order takes off the input are those that the calls in it
find, in the order of the calls. -/
theorem Moment.InOrder.input_eq [Limits] {moment : Moment} (order : moment.InOrder) (rounds : Nat) :
    moment.machine.console.input =
      (moment.readers rounds).filterMap Reader.line? ++ (moment.left rounds).console.input := by
  obtain ⟨work, depth, machine⟩ := moment
  obtain ⟨evaluates, executes⟩ := reads_evaluate_and_execute rounds depth
  change Run.Reads (Moment.readers rounds ⟨work, depth, machine⟩) (work.run rounds depth) machine
  cases work with
  | evaluation expression => exact (evaluates expression machine order).discard
  | evaluations expressions => exact (reads_evaluations evaluates expressions order).discard
  | execution statement => exact executes statement machine order
  | executions block => exact reads_executions executes block order
  | choice last arms => exact reads_choice evaluates executes last arms order
  | counting name body start left => exact reads_counting executes name body start left order
  | looping condition body left => exact reads_looping evaluates executes condition body left order

end IndentScript
