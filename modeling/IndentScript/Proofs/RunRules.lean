import IndentScript.Proofs.Moments

/-!
Properties of runs that hold of a whole if they hold of its parts. A property that composes is shown
of the few pieces in which a run meets the console, and of the ways in which pieces are put together;
then it holds of all the work of the evaluator, whatever the tree and the machine are.

A property may speak of moments that the run comes to. Every part of a piece of work is at such a
moment, so what is known of the moments of a part is known of those of the whole.
-/

namespace IndentScript

/-- At the moment the values are printed, by a print statement or by a call of what prints. The
arguments have left the second machine. -/
inductive Printing [Limits] (rounds : Nat) : Moment → List Value → Machine → Prop where
  | statement {arguments : List Expr} {depth identity : Nat} {machine middle : Machine}
      {values : List Value} :
    (arguments.mapM (Run.evaluate rounds depth)).run.run machine = (.ok values, middle) →
    Entries.get? "printline" middle.globals = some (.service identity .print) →
    Printing rounds ⟨.execution (.print arguments), depth + 1, machine⟩ values middle
  | call {callee : String} {arguments : List Expr} {depth identity : Nat} {machine middle : Machine}
      {values : List Value} :
    Run.find? callee machine.scopes = some (.service identity .print) →
    (arguments.mapM (Run.evaluate rounds depth)).run.run machine = (.ok values, middle) →
    Printing rounds ⟨.evaluation (.call callee arguments), depth + 1, machine⟩ values middle

namespace Console

theorem write_empty (console : Console) : console.write (.plain "") = console := by
  rw [write, Content.append_empty]

theorem write_write (console : Console) (first second : Content) :
    (console.write first).write second = console.write (first ++ second) := by
  simp only [write, Content.append_assoc]

end Console

namespace Machine

def written (text : Content) (machine : Machine) : Machine :=
  { machine with console := machine.console.write text }

theorem written_empty (machine : Machine) : machine.written (.plain "") = machine := by
  rw [written, Console.write_empty]

theorem written_written (first second : Content) (machine : Machine) :
    (machine.written first).written second = machine.written (first ++ second) := by
  simp only [written, Console.write_write]

end Machine

/-- The line is made of the texts of the values, each with a blank behind it. -/
inductive Shows [Limits] : List Value → Content → Prop where
  | nil : Shows [] (.plain "")
  | cons {value : Value} {others : List Value} {text line : Content} :
    value.shown = .ok text → Shows others line →
    Shows (value :: others) (text ++ .plain " " ++ line)

/-- All values have a text, or there is a first one that has none. -/
theorem shows_or_error [Limits] (values : List Value) :
    (∃ line, Shows values line) ∨
      ∃ front value others line cause, values = front ++ value :: others ∧ Shows front line ∧
        value.shown = .error cause := by
  induction values with
  | nil => exact .inl ⟨_, .nil⟩
  | cons value others ih =>
      cases shown : value.shown with
      | error cause => exact .inr ⟨[], value, others, _, cause, rfl, .nil, shown⟩
      | ok text =>
          rcases ih with ⟨line, shows⟩ | ⟨front, culprit, rest, line, cause, rfl, shows, failed⟩
          · exact .inl ⟨_, .cons shown shows⟩
          · exact .inr ⟨value :: front, culprit, rest, _, cause, rfl, .cons shown shows, failed⟩

namespace Run

/-! ### Printing -/

section

variable [Limits]

theorem run_printValue_ok {value : Value} {text : Content} (shown : value.shown = .ok text)
    (machine : Machine) :
    (printValue value).run.run machine = (.ok (), machine.written (text ++ .plain " ")) := by
  rw [printValue, shown]
  rfl

theorem run_printValue_error {value : Value} {cause : Fault} (shown : value.shown = .error cause)
    (machine : Machine) : (printValue value).run.run machine = (.error (.fault cause), machine) := by
  rw [printValue, shown]
  rfl

private theorem run_printValues {values : List Value} {line : Content} (shows : Shows values line)
    (others : List Value) (machine : Machine) :
    ((values ++ others).forM printValue).run.run machine =
      (others.forM printValue).run.run (machine.written line) := by
  induction shows generalizing machine with
  | nil => rw [machine.written_empty, List.nil_append]
  | @cons value rest text line shown _ ih =>
      rw [← Machine.written_written, ← ih]
      exact run_bind_ok (run_printValue_ok shown machine) _

theorem run_printLine_of_shows {values : List Value} {line : Content} (shows : Shows values line)
    (machine : Machine) :
    (printLine values).run.run machine = (.ok (), machine.written (line ++ .plain "\n")) := by
  have written := run_printValues shows [] machine
  rw [List.append_nil] at written
  rw [← Machine.written_written]
  exact run_bind_ok written _

theorem run_printLine_of_error {front : List Value} {value : Value} {line : Content}
    {cause : Fault} (shows : Shows front line) (failed : value.shown = .error cause)
    (others : List Value) (machine : Machine) :
    (printLine (front ++ value :: others)).run.run machine =
      (.error (.fault cause), machine.written line) := by
  have stopped := run_bind_error (run_printValue_error failed (machine.written line)) fun _ =>
    others.forM printValue
  exact run_bind_error ((run_printValues shows (value :: others) machine).trans stopped) _

end

/-! ### Reading -/

theorem run_readLine_nil {machine : Machine} (input : machine.console.input = []) :
    readLine.run.run machine = (.error (.fault .endOfInput), machine) := by
  rw [readLine, run_get_bind, input]
  rfl

theorem run_readLine_some {machine : Machine} {text : String} {rest : List (Option String)}
    (input : machine.console.input = some text :: rest) :
    readLine.run.run machine = (.ok text, { machine with console.input := rest }) := by
  rw [readLine, run_get_bind, input]
  rfl

theorem run_readLine_none {machine : Machine} {rest : List (Option String)}
    (input : machine.console.input = none :: rest) :
    readLine.run.run machine = (.error .interrupt, { machine with console.input := rest }) := by
  rw [readLine, run_get_bind, input]
  rfl

/-! ### Pieces that neither read nor print -/

/-- The run neither reads nor writes on the machine, and is not interrupted. -/
structure Steady {α : Type} (run : Run α) (machine : Machine) : Prop where
  input : (run.after machine).console.input = machine.console.input
  output : (run.after machine).console.output = machine.console.output
  uninterrupted : run.outcome machine ≠ .error .interrupt

section

variable {α : Type} {machine : Machine}

theorem steady_of_run {run : Run α} {ended : Except Stop α} {left : Machine}
    (ran : run.run.run machine = (ended, left))
    (sameInput : left.console.input = machine.console.input)
    (sameOutput : left.console.output = machine.console.output)
    (uninterrupted : ended ≠ .error .interrupt) : Steady run machine := by
  constructor
  · rw [after, ran, sameInput]
  · rw [after, ran, sameOutput]
  · rwa [outcome, ran]

theorem steady_pure (found : α) : Steady (pure found) machine :=
  steady_of_run rfl rfl rfl (by simp)

theorem steady_throw {signal : Stop} (other : signal ≠ .interrupt) :
    Steady (throw signal : Run α) machine :=
  steady_of_run rfl rfl rfl (by simpa using other)

theorem steady_ofExcept (computed : Except Fault α) : Steady (ofExcept computed) machine := by
  cases computed with
  | ok found => exact steady_pure found
  | error cause => exact steady_throw Stop.noConfusion

theorem steady_modify {change : Machine → Machine}
    (sameInput : (change machine).console.input = machine.console.input)
    (sameOutput : (change machine).console.output = machine.console.output) :
    Steady (modify change) machine :=
  steady_of_run rfl sameInput sameOutput (by simp)

theorem steady_newIdentity : Steady newIdentity machine :=
  steady_of_run rfl rfl rfl (by simp)

theorem steady_time : Steady time machine :=
  steady_of_run rfl rfl rfl (by simp)

theorem steady_lookup (name : String) : Steady (lookup name) machine := by
  cases found : find? name machine.scopes with
  | some value => exact steady_of_run (run_lookup_some found) rfl rfl (by simp)
  | none => exact steady_of_run (run_lookup_none found) rfl rfl (by simp)

theorem run_lookupGlobal_some {name : String} {found : Value}
    (known : Entries.get? name machine.globals = some found) :
    (lookupGlobal name).run.run machine = (.ok found, machine) := by
  rw [lookupGlobal, run_get_bind, known]
  rfl

theorem run_lookupGlobal_none {name : String}
    (unknown : Entries.get? name machine.globals = none) :
    (lookupGlobal name).run.run machine =
      (.error (.fault (.undefinedVariable name)), machine) := by
  rw [lookupGlobal, run_get_bind, unknown]
  rfl

end

/-! ### Properties that compose -/

/-- A property of a run on a machine, which may speak of moments that the run comes to. -/
abbrev Property :=
  (α : Type) → (Moment → Prop) → Run α → Machine → Prop

variable [Limits]

/-- The property holds of the pieces that read or print, of those that do neither, and of what is
put together from runs that have it. -/
structure Property.Composes (rounds : Nat) (holds : Property) : Prop where
  more {α : Type} {seen others : Moment → Prop} {run : Run α} {machine : Machine} :
    (∀ moment, seen moment → others moment) → holds α seen run machine →
      holds α others run machine
  steady {α : Type} {seen : Moment → Prop} {run : Run α} {machine : Machine} :
    Steady run machine → holds α seen run machine
  bind {α β : Type} {seen : Moment → Prop} {first : Run α} {next : α → Run β} {machine : Machine} :
    holds α seen first machine →
    (∀ found middle, first.run.run machine = (.ok found, middle) →
      holds β seen (next found) middle) → holds β seen (first >>= next) machine
  inScope {α : Type} {seen : Moment → Prop} {entries : Entries Value} {body : Run α}
      {machine : Machine} :
    holds α seen body (machine.enter entries) → holds α seen (inScope entries body) machine
  round {seen : Moment → Prop} {entries : Entries Value} {body : Run Unit} {machine : Machine} :
    holds Unit seen body (machine.enter entries) → holds Bool seen (round entries body) machine
  returning {seen : Moment → Prop} {body : Run Unit} {machine : Machine} :
    holds Unit seen body machine → holds Value seen (returning body) machine
  reading {seen : Moment → Prop} {machine : Machine} : holds String seen readLine machine
  printing {seen : Moment → Prop} {moment : Moment} {values : List Value} {middle : Machine} :
    Printing rounds moment values middle → seen moment → holds Unit seen (printLine values) middle

def fieldOf (rounds depth : Nat) (entry : String × Expr) : Run (String × Value) := do
  let value ← evaluate rounds depth entry.2
  return (entry.1, value)

theorem run_fieldOf_ok {rounds depth : Nat} {entry : String × Expr} {machine left : Machine}
    {value : Value} (ran : (evaluate rounds depth entry.2).run.run machine = (.ok value, left)) :
    (fieldOf rounds depth entry).run.run machine = (.ok (entry.1, value), left) :=
  run_bind_ok ran _

theorem run_fieldOf_error {rounds depth : Nat} {entry : String × Expr} {machine left : Machine}
    {stop : Stop} (ran : (evaluate rounds depth entry.2).run.run machine = (.error stop, left)) :
    (fieldOf rounds depth entry).run.run machine = (.error stop, left) :=
  run_bind_error ran _

namespace Property.Composes

variable {rounds : Nat} {holds : Property} (composes : holds.Composes rounds)

/-! ### Pieces that do not nest deeper -/

section

variable {α β : Type} {seen : Moment → Prop} {machine : Machine}

include composes

theorem pure (found : α) : holds α seen (Pure.pure found) machine :=
  composes.steady (steady_pure found)

theorem discard {run : Run α} (first : holds α seen run machine) :
    holds Unit seen (Functor.discard run) machine :=
  composes.bind first fun _ _ _ => composes.pure ()

theorem of_starts {moment next : Moment} {run : Run α} (starts : Starts rounds moment next)
    (part : holds α (Reaches rounds next) run machine) :
    holds α (Reaches rounds moment) run machine :=
  composes.more (fun _ reaches => reaches.head starts) part

theorem operate (operator : Operator) (left right : Value) :
    holds Value seen (operate operator left right) machine := by
  apply composes.bind (composes.steady (steady_ofExcept _))
  intro value middle _
  have distinguished : holds Value seen (distinguish value) middle := by
    unfold distinguish
    split
    · exact composes.bind (composes.steady steady_newIdentity) fun _ _ _ => composes.pure _
    · exact composes.pure _
  split
  · exact composes.pure value
  · exact composes.pure value
  · exact distinguished

theorem assign (name : String) (value : Value) : holds Unit seen (assign name value) machine :=
  composes.steady (steady_modify rfl rfl)

theorem load (library : String) : holds Unit seen (load library) machine := by
  unfold Run.load
  split
  · apply composes.bind (composes.steady steady_newIdentity)
    intro clock _ _
    apply composes.bind (composes.assign _ _)
    intro _ _ _
    apply composes.bind (composes.steady steady_newIdentity)
    intro sleep _ _
    exact composes.assign _ _
  · exact composes.pure ()

theorem perform (service : Service) {arguments : List Value}
    (prints : service = .print → holds Unit seen (printLine arguments) machine) :
    holds Value seen (perform service arguments) machine := by
  cases service with
  | print => exact composes.bind (prints rfl) fun _ _ _ => composes.pure _
  | range =>
      rcases arguments with _ | ⟨value, _ | ⟨second, others⟩⟩
      · exact composes.steady (steady_throw Stop.noConfusion)
      · exact composes.pure value
      · exact composes.steady (steady_throw Stop.noConfusion)
  | readLine => exact composes.bind composes.reading fun _ _ _ => composes.pure _
  | clock => exact composes.bind (composes.steady steady_time) fun _ _ _ => composes.pure _
  | sleep =>
      apply composes.bind
      · apply composes.bind (composes.steady (steady_ofExcept _))
        intro seconds middle _
        exact composes.steady (steady_modify rfl rfl)
      · intro _ _ _
        exact composes.pure _

end

section

variable {depth : Nat}

include composes in
private theorem mapM {α β : Type} {step : α → Run β} {expression : α → Expr}
    (steps : ∀ item machine,
      holds β (Reaches rounds ⟨.evaluation (expression item), depth, machine⟩) (step item) machine)
    (evaluates : ∀ item machine found left, (step item).run.run machine = (.ok found, left) →
      ∃ value, (evaluate rounds depth (expression item)).run.run machine = (.ok value, left))
    (items : List α) (machine : Machine) :
    holds (List β) (Reaches rounds ⟨.evaluations (items.map expression), depth, machine⟩)
      (items.mapM step) machine := by
  induction items generalizing machine with
  | nil => exact composes.pure []
  | cons item rest ih =>
      rw [List.mapM_cons]
      apply composes.bind (composes.of_starts .firstExpression (steps item machine))
      intro found middle ran
      obtain ⟨value, evaluated⟩ := evaluates item machine found middle ran
      apply composes.bind (composes.of_starts (.otherExpressions evaluated) (ih middle))
      intro others _ _
      exact composes.pure (found :: others)

variable
  (evaluates : ∀ expression machine,
    holds Value (Reaches rounds ⟨.evaluation expression, depth, machine⟩)
      (evaluate rounds depth expression) machine)
  (executes : ∀ statement machine,
    holds Unit (Reaches rounds ⟨.execution statement, depth, machine⟩)
      (execute rounds depth statement) machine)

include composes evaluates in
private theorem evaluations (expressions : List Expr) (machine : Machine) :
    holds (List Value) (Reaches rounds ⟨.evaluations expressions, depth, machine⟩)
      (expressions.mapM (evaluate rounds depth)) machine := by
  have all := composes.mapM evaluates (fun _ _ found _ ran => ⟨found, ran⟩) expressions machine
  rwa [List.map_id'] at all

include composes evaluates in
private theorem fields (entries : List (String × Expr)) (machine : Machine) :
    holds (List (String × Value))
      (Reaches rounds ⟨.evaluations (entries.map Prod.snd), depth, machine⟩)
      (entries.mapM (fieldOf rounds depth)) machine := by
  apply composes.mapM
  · intro entry machine
    exact composes.bind (evaluates entry.2 machine) fun _ _ _ => composes.pure _
  · intro entry machine found left ran
    cases evaluated : (evaluate rounds depth entry.2).run.run machine with
    | mk ended middle =>
        cases ended with
        | ok value =>
            rw [run_fieldOf_ok evaluated] at ran
            cases ran
            exact ⟨value, rfl⟩
        | error signal =>
            rw [run_fieldOf_error evaluated] at ran
            cases ran

include composes executes in
private theorem executions (block : Block) (machine : Machine) :
    holds Unit (Reaches rounds ⟨.executions block, depth, machine⟩)
      (runBlock (execute rounds depth) block) machine := by
  induction block generalizing machine with
  | nil => exact composes.pure ()
  | cons statement others ih =>
      apply composes.bind (composes.of_starts .firstStatement (executes statement machine))
      intro _ middle ran
      exact composes.of_starts (.otherStatements ran) (ih middle)

include composes evaluates executes in
private theorem choice (last : Block) (arms : List (Expr × Block)) (machine : Machine) :
    holds Unit (Reaches rounds ⟨.choice last arms, depth, machine⟩)
      (chooseArm (evaluate rounds depth) (runBlock (execute rounds depth)) last arms) machine := by
  induction arms generalizing machine with
  | nil => exact composes.of_starts .otherwise (composes.executions executes last machine)
  | cons arm rest ih =>
      obtain ⟨condition, body⟩ := arm
      apply composes.bind (composes.of_starts .test (evaluates condition machine))
      intro found middle ran
      cases isTrue : found.isTrue with
      | true => exact composes.of_starts (.taken ran isTrue) (composes.executions executes body middle)
      | false => exact composes.of_starts (.passed ran isTrue) (ih middle)

include composes executes in
private theorem counting (name : String) (body : Block) (start left : Nat) (machine : Machine) :
    holds Unit (Reaches rounds ⟨.counting name body start left, depth, machine⟩)
      (countUp (fun index => Run.round [(name, .int index)] (runBlock (execute rounds depth) body)) start
        left) machine := by
  induction left generalizing start machine with
  | zero => exact composes.pure ()
  | succ left ih =>
      have inRound := composes.executions executes body (machine.enter [(name, .int start)])
      apply composes.bind (composes.of_starts .countRound (composes.round inRound))
      intro goesOn middle ran
      cases goesOn with
      | true => exact composes.of_starts (.countOn ran) (ih (start + 1) middle)
      | false => exact composes.pure ()

include composes evaluates executes in
private theorem looping (condition : Expr) (body : Block) (left : Nat) (machine : Machine) :
    holds Unit (Reaches rounds ⟨.looping condition body left, depth, machine⟩)
      (whileTrue (evaluate rounds depth condition)
        (Run.round [] (runBlock (execute rounds depth) body)) left) machine := by
  induction left generalizing machine with
  | zero => exact composes.steady (steady_throw Stop.noConfusion)
  | succ left ih =>
      apply composes.bind (composes.of_starts .loopTest (evaluates condition machine))
      intro found middle ran
      cases isTrue : found.isTrue with
      | false => exact composes.pure ()
      | true =>
          have inRound := composes.executions executes body (middle.enter [])
          apply composes.bind (composes.of_starts (.loopRound ran isTrue) (composes.round inRound))
          intro goesOn last ranRound
          cases goesOn with
          | true => exact composes.of_starts (.loopOn ran isTrue ranRound) (ih last)
          | false => exact composes.pure ()

/-! ### One level of an expression and of a statement -/

include composes evaluates executes in
private theorem evaluate_succ (expression : Expr) (machine : Machine) :
    holds Value (Reaches rounds ⟨.evaluation expression, depth + 1, machine⟩)
      (evaluate rounds (depth + 1) expression) machine := by
  cases expression with
  | literal value => exact composes.pure _
  | «variable» name => exact composes.steady (steady_lookup name)
  | binary left operator right =>
      apply composes.bind (composes.of_starts .left (evaluates left machine))
      intro leftValue middle ran
      apply composes.bind (composes.of_starts (.right ran) (evaluates right middle))
      intro rightValue _ _
      exact composes.operate operator leftValue rightValue
  | table entries =>
      apply composes.bind (composes.of_starts .fields (composes.fields evaluates entries machine))
      intro found _ _
      exact composes.bind (composes.steady steady_newIdentity) fun _ _ _ => composes.pure _
  | call callee arguments =>
      apply composes.bind (composes.steady (steady_lookup callee))
      intro value same looked
      -- The look-up leaves the machine as it was, and its value is what the scopes hold.
      obtain ⟨found, rfl⟩ : find? callee machine.scopes = some value ∧ same = machine := by
        cases known : find? callee machine.scopes with
        | none =>
            rw [run_lookup_none known] at looked
            cases looked
        | some held =>
            rw [run_lookup_some known] at looked
            cases looked
            exact ⟨rfl, rfl⟩
      apply composes.bind
        (composes.of_starts (.arguments found) (composes.evaluations evaluates arguments same))
      intro values middle ran
      cases value with
      | function identity parameters body =>
          have inBody := composes.executions executes body
            (middle.enter (Entries.ofPairs (parameters.zip values)))
          exact composes.of_starts (.called found ran) (composes.inScope (composes.returning inBody))
      | service identity offered =>
          apply composes.perform offered
          rintro rfl
          exact composes.printing (.call found ran) .refl
      | _ => exact composes.steady (steady_throw Stop.noConfusion)
  | misplaced sort => exact composes.steady (steady_throw Stop.noConfusion)
  | lacking sort part => exact composes.steady (steady_throw Stop.noConfusion)

include composes evaluates executes in
private theorem execute_succ (statement : Stmt) (machine : Machine) :
    holds Unit (Reaches rounds ⟨.execution statement, depth + 1, machine⟩)
      (execute rounds (depth + 1) statement) machine := by
  cases statement with
  | print arguments =>
      apply composes.bind (composes.of_starts .printed (composes.evaluations evaluates arguments machine))
      intro values middle ran
      cases known : Entries.get? "printline" middle.globals with
      | none =>
          have looked := run_lookupGlobal_none known
          apply composes.bind (composes.steady (steady_of_run looked rfl rfl (by simp)))
          intro printer last found
          rw [looked] at found
          cases found
      | some printer =>
          have looked := run_lookupGlobal_some known
          apply composes.bind (composes.steady (steady_of_run looked rfl rfl (by simp)))
          intro again last found
          rw [looked] at found
          cases found
          cases printer with
          | service identity offered =>
              apply composes.discard
              apply composes.perform offered
              rintro rfl
              exact composes.printing (.statement ran known) .refl
          | _ => exact composes.steady (steady_throw Stop.noConfusion)
  | assign name value =>
      apply composes.bind (composes.of_starts .assigned (evaluates value machine))
      intro result _ _
      exact composes.assign name result
  | branch condition body arms otherwise =>
      exact composes.of_starts .branch (composes.choice evaluates executes _ _ machine)
  | count name limit body =>
      apply composes.bind (composes.of_starts .limit (evaluates limit machine))
      intro found middle ran
      cases bounded : found.integer? with
      | none => exact composes.steady (steady_throw Stop.noConfusion)
      | some bound =>
          exact composes.of_starts (.count ran bounded)
            (composes.counting executes name body 0 bound.toNat middle)
  | loop condition body =>
      exact composes.of_starts .loop
        (composes.looping evaluates executes condition body rounds machine)
  | leave => exact composes.steady (steady_throw Stop.noConfusion)
  | next => exact composes.steady (steady_throw Stop.noConfusion)
  | define name parameters body =>
      apply composes.bind (composes.steady steady_newIdentity)
      intro identity _ _
      exact composes.assign name _
  | result value =>
      cases value with
      | none => exact composes.steady (steady_throw Stop.noConfusion)
      | some value =>
          apply composes.bind (composes.of_starts .result (evaluates value machine))
          intro found _ _
          exact composes.steady (steady_throw Stop.noConfusion)
  | load library => exact composes.load library
  | evaluate value => exact composes.discard (composes.of_starts .evaluated (evaluates value machine))

end

include composes in
private theorem evaluate_and_execute (depth : Nat) :
    (∀ expression machine, holds Value (Reaches rounds ⟨.evaluation expression, depth, machine⟩)
      (evaluate rounds depth expression) machine) ∧
    ∀ statement machine, holds Unit (Reaches rounds ⟨.execution statement, depth, machine⟩)
      (execute rounds depth statement) machine := by
  have tooDeep : ∀ α seen machine, holds α seen (fail .tooDeep) machine :=
    fun _ _ _ => composes.steady (steady_throw Stop.noConfusion)
  induction depth with
  | zero => exact ⟨fun _ machine => tooDeep _ _ machine, fun _ machine => tooDeep _ _ machine⟩
  | succ depth ih =>
      exact ⟨composes.evaluate_succ ih.1 ih.2, composes.execute_succ ih.1 ih.2⟩

include composes in
/-- A property that composes holds of all work. -/
theorem work (moment : Moment) :
    holds Unit (Reaches rounds moment) (moment.work.run rounds moment.depth) moment.machine := by
  obtain ⟨work, depth, machine⟩ := moment
  obtain ⟨evaluates, executes⟩ := composes.evaluate_and_execute depth
  cases work with
  | evaluation expression => exact composes.discard (evaluates expression machine)
  | evaluations expressions =>
      exact composes.discard (composes.evaluations evaluates expressions machine)
  | execution statement => exact executes statement machine
  | executions block => exact composes.executions executes block machine
  | choice last arms => exact composes.choice evaluates executes last arms machine
  | counting name body start left => exact composes.counting executes name body start left machine
  | looping condition body left =>
      exact composes.looping evaluates executes condition body left machine

end Property.Composes

end Run

end IndentScript
