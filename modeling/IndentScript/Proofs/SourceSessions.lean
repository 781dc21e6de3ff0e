import IndentScript.Proofs.Moments
import IndentScript.Proofs.SourceTrees

/-!
Sessions of source texts. Whatever texts are run one after another on a new machine, some of which
may fail, two things hold at every moment that takes place.

No node outside the language is evaluated, and every function that some scope holds has a body as
source texts have them. So no text is stopped by a fault that blames its tree.

No keyword is bound anew: the global scope has the services that are named like keywords as it had
them at the start, and no other scope has such a name. So every print statement prints.
-/

namespace IndentScript

/-! ### Values and scopes -/

inductive Value.IsRead : Value → Prop where
  | plain {value : Value} : value.isPlain = true → IsRead value
  | table {identity : Nat} {entries : List (String × Value)} : (∀ entry ∈ entries, IsRead entry.2) →
    IsRead (.table identity entries)
  | function {identity : Nat} {parameters : List String} {body : Block} :
    (∀ parameter ∈ parameters, Keyword.ofSpelling? parameter = .none) → Stmt.AreRead body →
    IsRead (.function identity parameters body)

theorem Value.IsRead.of_function {identity : Nat} {parameters : List String} {body : Block}
    (read : (Value.function identity parameters body).IsRead) :
    (∀ parameter ∈ parameters, Keyword.ofSpelling? parameter = .none) ∧ Stmt.AreRead body := by
  cases read with
  | plain none => cases none
  | function names statements => exact ⟨names, statements⟩

def Stop.IsRead : Stop → Prop
  | .result value => value.IsRead
  | _ => True

theorem Stop.isRead_of_isOrdinary {stop : Stop} (ordinary : stop.isOrdinary = true) :
    stop.IsRead := by
  cases stop with
  | result value => cases ordinary
  | _ => trivial

namespace Run

/-- The global scope under so many others. Every value in them is as source texts make them; the
global scope has no keyword bound anew and the others have none bound at all. -/
inductive Guarded : Nat → Scopes → Prop where
  | globals {entries : Entries Value} : (∀ entry ∈ entries, entry.2.IsRead) →
    (∀ keyword : Keyword, Entries.get? keyword.spelling entries =
      Entries.get? keyword.spelling Machine.services) → Guarded 0 [entries]
  | inner {height : Nat} {entries : Entries Value} {scopes : Scopes} :
    (∀ entry ∈ entries, Keyword.ofSpelling? entry.1 = none ∧ entry.2.IsRead) →
    Guarded height scopes → Guarded (height + 1) (entries :: scopes)

theorem spelling_ne {name : String} (unknown : Keyword.ofSpelling? name = none)
    (keyword : Keyword) : keyword.spelling ≠ name := by
  rintro rfl
  rw [Keyword.ofSpelling?_spelling] at unknown
  cases unknown

variable {height : Nat} {scopes : Scopes}

theorem Guarded.assigned {name : String} {value : Value} (guarded : Guarded height scopes)
    (unknown : Keyword.ofSpelling? name = none) (read : value.IsRead) :
    Guarded height (assigned name value scopes) := by
  cases guarded with
  | globals values bindings =>
      refine .globals (Entries.forall_mem_set values read) ?_
      intro keyword
      rw [Entries.get?_set_of_ne (spelling_ne unknown keyword)]
      exact bindings keyword
  | inner entries outer =>
      exact .inner (Entries.forall_mem_set entries ⟨unknown, read⟩) outer

theorem Guarded.drop (guarded : Guarded (height + 1) scopes) : Guarded height (scopes.drop 1) := by
  cases guarded with
  | inner _ outer => exact outer

theorem Guarded.holds (guarded : Guarded height scopes) : Holds Value.IsRead scopes := by
  induction guarded with
  | globals values _ => exact List.forall_mem_singleton.mpr values
  | inner entries _ ih => exact ih.cons fun entry member => (entries entry member).2

theorem Guarded.ne_nil (guarded : Guarded height scopes) : scopes ≠ [] := by
  cases guarded with
  | globals => exact List.cons_ne_nil _ _
  | inner => exact List.cons_ne_nil _ _

/-- The global scope has the services that are named like keywords, and no other scope has a name
that is spelled like a keyword. -/
structure Unclobbered (scopes : Scopes) : Prop where
  globals : ∀ keyword : Keyword, Entries.get? keyword.spelling (scopes.getLast?.getD []) =
    Entries.get? keyword.spelling Machine.services
  locals : ∀ scope ∈ scopes.dropLast, ∀ keyword : Keyword,
    Entries.get? keyword.spelling scope = none

theorem Guarded.unclobbered (guarded : Guarded height scopes) : Unclobbered scopes := by
  induction guarded with
  | globals _ bindings => exact ⟨bindings, List.forall_mem_nil _⟩
  | @inner height entries scopes names outer ih =>
      have unbound : ∀ keyword : Keyword, Entries.get? keyword.spelling entries = none := by
        intro keyword
        cases found : Entries.get? keyword.spelling entries with
        | none => rfl
        | some value =>
            exact absurd rfl (spelling_ne (names _ (Entries.mem_of_get? found)).1 keyword)
      cases scopes with
      | nil => exact absurd rfl outer.ne_nil
      | cons next rest => exact ⟨ih.globals, List.forall_mem_cons.mpr ⟨unbound, ih.locals⟩⟩

/-- What a call binds its parameters to. -/
theorem forall_mem_arguments {parameters : List String} {values : List Value}
    (names : ∀ parameter ∈ parameters, Keyword.ofSpelling? parameter = none)
    (given : ∀ value ∈ values, value.IsRead) :
    ∀ entry ∈ Entries.ofPairs (parameters.zip values),
      Keyword.ofSpelling? entry.1 = none ∧ entry.2.IsRead := by
  apply Entries.forall_mem_ofPairs
  intro pair member
  obtain ⟨isParameter, isValue⟩ := List.of_mem_zip member
  exact ⟨names _ isParameter, given _ isValue⟩

/-- What a round of a counting loop starts with. -/
theorem forall_mem_counter {name : String} (unknown : Keyword.ofSpelling? name = none) (index : Nat) :
    ∀ entry ∈ [(name, Value.int index)], Keyword.ofSpelling? entry.1 = none ∧ entry.2.IsRead :=
  List.forall_mem_singleton.mpr ⟨unknown, .plain rfl⟩

/-! ### What runs keep -/

/-- At any height the run keeps the scopes guarded, and gives values as source texts make them. -/
abbrev Guards {α : Type} (value : α → Prop) (run : Run α) : Prop :=
  ∀ height, Keeps (Guarded height) value Stop.IsRead run

theorem Guards.inScope {α : Type} {value : α → Prop} {entries : Entries Value} {body : Run α}
    (new : ∀ entry ∈ entries, Keyword.ofSpelling? entry.1 = none ∧ entry.2.IsRead)
    (guards : Guards value body) : Guards value (inScope entries body) := by
  intro height
  apply Keeps.inScope _ _ (guards (height + 1))
  · exact fun scopes guarded => .inner new guarded
  · exact fun scopes guarded => guarded.drop

theorem Guards.round {entries : Entries Value} {body : Run Unit}
    (new : ∀ entry ∈ entries, Keyword.ofSpelling? entry.1 = none ∧ entry.2.IsRead)
    (guards : Guards (fun _ => True) body) : Guards (fun _ => True) (round entries body) := by
  intro height
  apply Keeps.round _ _ _ (guards (height + 1))
  · exact fun scopes guarded => .inner new guarded
  · exact fun scopes guarded => guarded.drop
  · exact fun signal read _ _ => read

end Run

def Work.IsRead : Work → Prop
  | .evaluation expression => expression.IsRead
  | .evaluations expressions => ∀ expression ∈ expressions, expression.IsRead
  | .execution statement => Stmt.AreRead [statement]
  | .executions block => Stmt.AreRead block
  | .choice otherwise arms =>
    Stmt.AreRead otherwise ∧ ∀ arm ∈ arms, arm.1.IsRead ∧ Stmt.AreRead arm.2
  | .counting name body _ _ => Keyword.ofSpelling? name = none ∧ Stmt.AreRead body
  | .looping condition body _ => condition.IsRead ∧ Stmt.AreRead body

namespace Stmt

theorem AreRead.choice {condition : Expr} {body : Block} {arms : List (Expr × Block)}
    {otherwise : Option Block} (read : AreRead [.branch condition body arms otherwise]) :
    (Work.choice (otherwise.getD []) ((condition, body) :: arms)).IsRead := by
  have tests := (read.isRead List.mem_cons_self).expressions
  have blocks : ∀ block ∈ (Stmt.branch condition body arms otherwise).bodies, AreRead block :=
    fun block => read.body List.mem_cons_self
  refine ⟨?_, List.forall_mem_cons.mpr ⟨⟨tests _ List.mem_cons_self, ?_⟩, ?_⟩⟩
  · cases otherwise with
    | none => exact areRead_nil
    | some last =>
        exact blocks last (List.mem_cons_of_mem _ (List.mem_append_right _ List.mem_cons_self))
  · exact blocks body List.mem_cons_self
  · intro arm member
    refine ⟨tests _ (List.mem_cons_of_mem _ (List.mem_map_of_mem member)), ?_⟩
    exact blocks _ (List.mem_cons_of_mem _ (List.mem_append_left _ (List.mem_map_of_mem member)))

theorem AreRead.counting {name : String} {limit : Expr} {body : Block}
    (read : AreRead [.count name limit body]) (start left : Nat) :
    (Work.counting name body start left).IsRead :=
  ⟨(read.isRead List.mem_cons_self).names name List.mem_cons_self,
    read.body List.mem_cons_self List.mem_cons_self⟩

theorem AreRead.looping {condition : Expr} {body : Block} (read : AreRead [.loop condition body])
    (left : Nat) : (Work.looping condition body left).IsRead :=
  ⟨(read.isRead List.mem_cons_self).expressions condition List.mem_cons_self,
    read.body List.mem_cons_self List.mem_cons_self⟩

end Stmt

namespace Run

variable [Limits]

section

variable {rounds depth : Nat}
  (evaluates : ∀ expression : Expr, expression.IsRead →
    Guards Value.IsRead (evaluate rounds depth expression))
  (executes : ∀ statement, Stmt.AreRead [statement] →
    Guards (fun _ => True) (execute rounds depth statement))

include evaluates in
private theorem guards_evaluations {expressions : List Expr}
    (read : ∀ expression ∈ expressions, expression.IsRead) :
    Guards (fun values => ∀ value ∈ values, Value.IsRead value)
      (expressions.mapM (evaluate rounds depth)) :=
  fun height => Keeps.mapM expressions fun expression member =>
    evaluates expression (read expression member) height

include executes in
private theorem guards_executions {block : Block} (read : Stmt.AreRead block) :
    Guards (fun _ => True) (runBlock (execute rounds depth) block) := by
  intro height
  apply Keeps.forM
  intro statement member
  exact executes statement (read.mono (List.cons_subset.mpr ⟨member, List.nil_subset _⟩)) height

include evaluates executes in
/-- Every piece of work guards the scopes if single expressions and statements do. -/
private theorem guards_work {work : Work} (read : work.IsRead) :
    Guards (fun _ => True) (work.run rounds depth) := by
  have tests : ∀ expression : Expr, expression.IsRead →
      Guards (fun _ => True) (evaluate rounds depth expression) := by
    intro expression isRead height
    exact (evaluates expression isRead height).mono (fun _ _ => trivial) fun _ stops => stops
  intro height
  cases work with
  | evaluation expression => exact (evaluates expression read height).discard
  | evaluations expressions => exact (guards_evaluations evaluates read height).discard
  | execution statement => exact executes statement read height
  | executions block => exact guards_executions executes read height
  | choice last arms =>
      exact Keeps.chooseArm arms (fun arm member => tests arm.1 (read.2 arm member).1 height)
        (fun arm member => guards_executions executes (read.2 arm member).2 height)
        (guards_executions executes read.1 height)
  | counting name body start left =>
      apply Keeps.countUp
      intro index
      exact (guards_executions executes read.2).round (forall_mem_counter read.1 index) height
  | looping condition body left =>
      exact Keeps.whileTrue left trivial (tests condition read.1 height)
        ((guards_executions executes read.2).round (List.forall_mem_nil _) height)

include executes in
private theorem guards_callNamed {name : String} {callee : Value} {arguments : List Value}
    (read : callee.IsRead) (given : ∀ argument ∈ arguments, argument.IsRead) :
    Guards Value.IsRead (callNamed (execute rounds depth) name callee arguments) := by
  intro height
  apply Keeps.callNamed _ (fun _ => .plain) given fun _ => Stop.isRead_of_isOrdinary
  rintro identity parameters body rfl
  obtain ⟨names, statements⟩ := read.of_function
  have returns : Guards Value.IsRead (returning (runBlock (execute rounds depth) body)) := by
    intro height
    refine Keeps.returning (.plain rfl) ?_ ?_ (guards_executions executes statements height)
    · exact fun found stops => stops
    · exact fun signal stops _ => stops
  exact returns.inScope (forall_mem_arguments names given) height

include evaluates executes in
private theorem guards_evaluate_succ {expression : Expr} (read : expression.IsRead) :
    Guards Value.IsRead (evaluate rounds (depth + 1) expression) := by
  have finds : ∀ name, Guards Value.IsRead (lookup name) := by
    intro name height
    exact Keeps.lookup (fun scopes guarded value found => guarded.holds.find? found) trivial
  intro height
  cases read with
  | number value => exact Keeps.pure (.plain rfl)
  | text content => exact Keeps.pure (.plain rfl)
  | falsehood => exact Keeps.pure (.plain rfl)
  | «variable» name => exact finds name height
  | binary left _ right =>
      apply (evaluates _ left height).bind
      intro leftValue isLeft
      apply (evaluates _ right height).bind
      intro rightValue isRight
      apply Keeps.operate _ (fun _ => .plain) fun _ _ => trivial
      intro found applied
      rcases Operator.apply_eq_ok applied with rfl | rfl | plain
      · exact isLeft
      · exact isRight
      · exact .plain plain
  | @table entries fields =>
      have read : Keeps (Guarded height) (fun found => ∀ field ∈ found, Value.IsRead field.2)
          Stop.IsRead (entries.mapM fun entry => do
            let value ← evaluate rounds depth entry.2
            return (entry.1, value)) :=
        Keeps.mapM entries fun entry member => (evaluates _ (fields entry member) height).bind
          fun value isValue => Keeps.pure isValue
      apply read.bind
      intro found areRead
      exact Keeps.newIdentity.bind fun identity _ => Keeps.pure (.table areRead)
  | call arguments =>
      apply (finds _ height).bind
      intro callee isRead
      apply (guards_evaluations evaluates arguments height).bind
      intro values areRead
      exact guards_callNamed executes isRead areRead height

include evaluates executes in
private theorem guards_execute_succ {statement : Stmt} (read : Stmt.AreRead [statement]) :
    Guards (fun _ => True) (execute rounds (depth + 1) statement) := by
  have whole := read.isRead List.mem_cons_self
  have assigns : ∀ name ∈ statement.binds, ∀ value : Value, value.IsRead →
      Guards (fun _ => True) (assign name value) :=
    fun name member value isRead height => Keeps.assign fun scopes guarded =>
      guarded.assigned (whole.names name member) isRead
  intro height
  cases statement with
  | print arguments =>
      have printers : Keeps (Guarded height) (fun _ => True) Stop.IsRead (lookupGlobal "printline") :=
        Keeps.lookupGlobal trivial
      apply (guards_evaluations evaluates whole.expressions height).bind
      intro values _
      apply printers.bind
      intro printer _
      exact Keeps.printWith printer values fun _ => Stop.isRead_of_isOrdinary
  | assign name value =>
      apply (evaluates value (whole.expressions value List.mem_cons_self) height).bind
      intro found isRead
      exact assigns name List.mem_cons_self found isRead height
  | branch condition body arms otherwise =>
      exact guards_work evaluates executes read.choice height
  | count name limit body =>
      apply (evaluates limit (whole.expressions limit List.mem_cons_self) height).bind
      intro found _
      cases found.integer? with
      | none => exact Keeps.fail trivial
      | some bound => exact guards_work evaluates executes (read.counting 0 bound.toNat) height
  | loop condition body => exact guards_work evaluates executes (read.looping rounds) height
  | leave => exact Keeps.throw trivial
  | next => exact Keeps.throw trivial
  | define name parameters body =>
      have isRead : ∀ identity, (Value.function identity parameters body).IsRead := by
        intro identity
        apply Value.IsRead.function
        · exact fun parameter member => whole.names parameter (List.mem_cons_of_mem name member)
        · exact read.body List.mem_cons_self List.mem_cons_self
      apply Keeps.newIdentity.bind
      intro identity _
      exact assigns name List.mem_cons_self _ (isRead identity) height
  | result value =>
      cases value with
      | none => exact Keeps.throw (.plain rfl)
      | some value =>
          apply (evaluates value (whole.expressions value List.mem_cons_self) height).bind
          intro found isRead
          exact Keeps.throw isRead
  | load library =>
      apply Keeps.load
      intro name member found scopes plain guarded
      exact guarded.assigned (by revert name; decide) (.plain plain)
  | evaluate value =>
      exact (evaluates value (whole.expressions value List.mem_cons_self) height).discard

end

theorem guards_evaluate_and_execute (rounds depth : Nat) :
    (∀ expression : Expr, expression.IsRead →
      Guards Value.IsRead (evaluate rounds depth expression)) ∧
    ∀ statement, Stmt.AreRead [statement] →
      Guards (fun _ => True) (execute rounds depth statement) := by
  induction depth with
  | zero => exact ⟨fun _ _ _ => Keeps.fail trivial, fun _ _ _ => Keeps.fail trivial⟩
  | succ depth ih =>
      exact ⟨fun _ => guards_evaluate_succ ih.1 ih.2, fun _ => guards_execute_succ ih.1 ih.2⟩

theorem guards_run (rounds depth : Nat) {work : Work} (read : work.IsRead) :
    Guards (fun _ => True) (work.run rounds depth) :=
  guards_work (guards_evaluate_and_execute rounds depth).1
    (guards_evaluate_and_execute rounds depth).2 read

omit [Limits] in
/-- What holds of the machine and of the value when the run has ended. -/
theorem Guards.ended {α : Type} {value : α → Prop} {run : Run α} (guards : Guards value run)
    {height : Nat} {machine left : Machine} {ended : Except Stop α}
    (guarded : Guarded height machine.scopes) (ran : run.run.run machine = (ended, left)) :
    Guarded height left.scopes ∧ Ends value Stop.IsRead ended := by
  have ends := guards height machine guarded
  rwa [after, outcome, ran] at ends

end Run

/-! ### Moments -/

open Run in
/-- The moment is on a tree as source texts have them and on a machine with guarded scopes. -/
structure Moment.InOrder (moment : Moment) : Prop where
  work : moment.work.IsRead
  scopes : ∃ height, Guarded height moment.machine.scopes

namespace Moment.InOrder

variable [Limits] {moment next : Moment}

open Run in
/-- What comes directly out of a moment in order is in order, whatever the limit on the rounds. -/
theorem starts (order : moment.InOrder) (rounds : Nat) (starts : Starts rounds moment next) :
    next.InOrder := by
  obtain ⟨read, height, guarded⟩ := order
  have evaluates := fun depth => (guards_evaluate_and_execute rounds depth).1
  have executes := fun depth => (guards_evaluate_and_execute rounds depth).2
  have inBlock := fun depth {block : Block} (isRead : Stmt.AreRead block) =>
    guards_executions (executes depth) isRead
  cases starts with
  | left =>
      cases read with
      | binary left _ _ => exact ⟨left, height, guarded⟩
  | right ran =>
      cases read with
      | binary left _ right => exact ⟨right, height, ((evaluates _ _ left).ended guarded ran).1⟩
  | fields =>
      cases read with
      | table fields => exact ⟨List.forall_mem_map.mpr fields, height, guarded⟩
  | arguments _ =>
      cases read with
      | call arguments => exact ⟨arguments, height, guarded⟩
  | called found ran =>
      cases read with
      | call arguments =>
          obtain ⟨names, statements⟩ := (guarded.holds.find? found).of_function
          obtain ⟨guardedThen, given⟩ :=
            (guards_evaluations (evaluates _) arguments).ended guarded ran
          exact ⟨statements, height + 1, .inner (forall_mem_arguments names given) guardedThen⟩
  | firstExpression => exact ⟨read _ List.mem_cons_self, height, guarded⟩
  | otherExpressions ran =>
      obtain ⟨first, others⟩ := List.forall_mem_cons.mp read
      exact ⟨others, height, ((evaluates _ _ first).ended guarded ran).1⟩
  | printed => exact ⟨(read.isRead List.mem_cons_self).expressions, height, guarded⟩
  | assigned | limit | result | evaluated =>
      exact ⟨(read.isRead List.mem_cons_self).expressions _ List.mem_cons_self, height, guarded⟩
  | branch => exact ⟨read.choice, height, guarded⟩
  | count ran _ =>
      have limit := (read.isRead List.mem_cons_self).expressions _ List.mem_cons_self
      exact ⟨read.counting _ _, height, ((evaluates _ _ limit).ended guarded ran).1⟩
  | loop => exact ⟨read.looping _, height, guarded⟩
  | firstStatement =>
      exact ⟨read.mono (List.cons_subset.mpr ⟨List.mem_cons_self, List.nil_subset _⟩), height, guarded⟩
  | otherStatements ran =>
      have first := read.mono (List.cons_subset.mpr ⟨List.mem_cons_self, List.nil_subset _⟩)
      exact ⟨read.mono (List.subset_cons_self _ _), height,
        ((executes _ _ first).ended guarded ran).1⟩
  | test => exact ⟨(read.2 _ List.mem_cons_self).1, height, guarded⟩
  | taken ran _ =>
      obtain ⟨test, body⟩ := read.2 _ List.mem_cons_self
      exact ⟨body, height, ((evaluates _ _ test).ended guarded ran).1⟩
  | passed ran _ =>
      obtain ⟨⟨test, _⟩, others⟩ := List.forall_mem_cons.mp read.2
      exact ⟨⟨read.1, others⟩, height, ((evaluates _ _ test).ended guarded ran).1⟩
  | otherwise => exact ⟨read.1, height, guarded⟩
  | countRound =>
      exact ⟨read.2, height + 1, .inner (forall_mem_counter read.1 _) guarded⟩
  | @countOn _ _ start _ depth _ _ ran =>
      have inRound := (inBlock depth read.2).round (forall_mem_counter read.1 start)
      exact ⟨read, height, (inRound.ended guarded ran).1⟩
  | loopTest => exact ⟨read.1, height, guarded⟩
  | loopRound ran _ =>
      have tested := ((evaluates _ _ read.1).ended guarded ran).1
      exact ⟨read.2, height + 1, .inner (List.forall_mem_nil _) tested⟩
  | @loopOn _ _ _ depth _ _ _ _ ran _ ranRound =>
      have tested := ((evaluates _ _ read.1).ended guarded ran).1
      have inRound := (inBlock depth read.2).round (List.forall_mem_nil _)
      exact ⟨read, height, (inRound.ended tested ranRound).1⟩

theorem reaches {rounds : Nat} (order : moment.InOrder) (reaches : Reaches rounds moment next) :
    next.InOrder := by
  induction reaches with
  | refl => exact order
  | tail _ starts ih => exact ih.starts rounds starts

/-- The machine that the work of the moment leaves. -/
theorem left (order : moment.InOrder) (rounds : Nat) :
    ∃ height, Run.Guarded height (moment.left rounds).scopes := by
  obtain ⟨read, height, guarded⟩ := order
  exact ⟨height, (Run.guards_run rounds _ read height moment.machine guarded).1⟩

end Moment.InOrder

/-! ### Sessions -/

namespace Machine

variable [Limits]

/-- The machine that source texts leave when they are run one after another. -/
def afterSources (sources : List String) (machine : Machine) : Machine :=
  sources.foldl (fun left source => (left.runSource source).2) machine

def beginning (machine : Machine) (program : Program) : Moment :=
  ⟨.executions program.statements, Run.depthLimit, machine⟩

theorem runProgram_snd (program : Program) (machine : Machine) :
    (machine.runProgram program).2 = (machine.beginning program).left Run.roundLimit := by
  rw [runProgram, runProgramWithin, Moment.left, Run.after]
  change _ = ((Run.programWithin Run.roundLimit Run.depthLimit program).run.run machine).2
  cases (Run.programWithin Run.roundLimit Run.depthLimit program).run.run machine with
  | mk ended left =>
      cases ended with
      | ok _ => rfl
      | error stop => rfl

theorem runProgram_fst {program : Program} {machine : Machine} {stop : Stop}
    (stopped : (machine.runProgram program).1 = some stop) :
    (machine.beginning program).outcome Run.roundLimit = .error stop := by
  rw [runProgram, runProgramWithin] at stopped
  change ((Run.programWithin Run.roundLimit Run.depthLimit program).run.run machine).1 = _
  cases ran : (Run.programWithin Run.roundLimit Run.depthLimit program).run.run machine with
  | mk ended left =>
      rw [ran] at stopped
      cases ended with
      | ok _ => cases stopped
      | error signal =>
          cases stopped
          rfl

omit [Limits] in
theorem guarded_new (console : Console) : Run.Guarded 0 (new console).scopes := by
  refine .globals ?_ fun _ => rfl
  have plain : ∀ entry ∈ services, entry.2.isPlain = true := by decide
  exact fun entry member => .plain (plain entry member)

theorem guarded_runSource {machine : Machine} (guarded : Run.Guarded 0 machine.scopes)
    (source : String) : Run.Guarded 0 (machine.runSource source).2.scopes := by
  rw [runSource]
  cases compiled : compile source with
  | error failure => exact guarded
  | ok program =>
      change Run.Guarded 0 (machine.runProgram program).2.scopes
      rw [runProgram_snd]
      have read : (machine.beginning program).work.IsRead := Stmt.areRead_of_compile compiled
      exact (Run.guards_run Run.roundLimit Run.depthLimit read 0 machine guarded).1

theorem guarded_afterSources (sources : List String) {machine : Machine}
    (guarded : Run.Guarded 0 machine.scopes) :
    Run.Guarded 0 (machine.afterSources sources).scopes := by
  induction sources generalizing machine with
  | nil => exact guarded
  | cons source rest ih => exact ih (guarded_runSource guarded source)

/-- Every moment of a session is in order. -/
theorem inOrder_of_reaches (console : Console) (before : List String) {source : String}
    {program : Program} (compiled : compile source = .ok program) {moment : Moment}
    (reaches : Reaches Run.roundLimit (((new console).afterSources before).beginning program) moment) :
    moment.InOrder := by
  have start : (((new console).afterSources before).beginning program).InOrder :=
    ⟨Stmt.areRead_of_compile compiled, 0, guarded_afterSources before (guarded_new console)⟩
  exact start.reaches reaches

end Machine

theorem Expr.IsRead.isForeign {expression : Expr} (read : expression.IsRead) :
    expression.isForeign = false := by
  cases read with
  | binary _ known _ => exact decide_eq_false (not_not_intro known)
  | _ => rfl

namespace Machine

/-- A fault that stops a text of a session does not blame its tree. -/
theorem blamesTree_of_stopped [Limits] {console : Console} {before : List String} {source : String}
    {program : Program} (compiled : compile source = .ok program) {cause : Fault}
    (stopped : (((new console).afterSources before).runSource source).1 =
      some (.stopped (.fault cause))) : cause.blamesTree = false := by
  rw [runSource, compiled] at stopped
  obtain ⟨stop, stopped, same⟩ := Option.map_eq_some_iff.mp stopped
  cases same
  cases blames : cause.blamesTree with
  | false => rfl
  | true =>
      obtain ⟨node, depth, machine, foreign, reaches⟩ :=
        Run.meetsForeign_of_blamesTree (runProgram_fst stopped) blames
      have read := (inOrder_of_reaches console before compiled reaches).work
      rw [Expr.IsRead.isForeign read] at foreign
      cases foreign

end Machine

/-- Whatever source texts were run before on a new machine, a text that is read into a program has
only nodes and operators of the language, and no other node or operator stops it. At every moment of
its run, the expression that is about to be evaluated is such a node, and the values in all scopes,
before and after the work of the moment, have functions in them only as source texts define them. -/
theorem Machine.runSource_meets_no_foreign_node [Limits] (console : Console) (before : List String)
    {source : String} {program : Program} (compiled : compile source = .ok program) :
    Stmt.AreRead program.statements ∧
    (∀ cause, (((new console).afterSources before).runSource source).1 =
        some (.stopped (.fault cause)) →
      (∀ operator, cause ≠ .unknownOperator operator) ∧ ∀ sort, cause ≠ .unknownExpression sort) ∧
    ∀ moment,
      Reaches Run.roundLimit (((new console).afterSources before).beginning program) moment →
      (∀ node, moment.work = .evaluation node → node.isForeign = false) ∧
      Run.Holds Value.IsRead moment.machine.scopes ∧
      Run.Holds Value.IsRead (moment.left Run.roundLimit).scopes := by
  refine ⟨Stmt.areRead_of_compile compiled, ?_, ?_⟩
  · intro cause stopped
    have spares := blamesTree_of_stopped compiled stopped
    refine ⟨?_, ?_⟩
    · rintro operator rfl
      cases spares
    · rintro sort rfl
      cases spares
  · intro moment reaches
    have order := inOrder_of_reaches console before compiled reaches
    refine ⟨?_, ?_, ?_⟩
    · intro node same
      have read := order.work
      rw [same] at read
      exact Expr.IsRead.isForeign read
    · obtain ⟨height, guarded⟩ := order.scopes
      exact guarded.holds
    · obtain ⟨height, guarded⟩ := order.left Run.roundLimit
      exact guarded.holds

def definesTwice : String :=
  "func twice(x):\n    return x + x"

def definesTwiceTokens : List Token :=
  [⟨.keyword .funcWord, .text "func", 1⟩, ⟨.identifier, .text "twice", 1⟩,
    ⟨.symbol .openParen, .text "(", 1⟩, ⟨.identifier, .text "x", 1⟩,
    ⟨.symbol .closeParen, .text ")", 1⟩, ⟨.symbol .colon, .text ":", 1⟩, Token.opening 2,
    ⟨.keyword .returnWord, .text "return", 2⟩, ⟨.identifier, .text "x", 2⟩,
    ⟨.symbol .plus, .text "+", 2⟩, ⟨.identifier, .text "x", 2⟩, Token.closing 2, Token.final 2]

def doubled : Expr :=
  .binary (.variable "x") .plus (.variable "x")

def definesTwiceProgram : Program :=
  ⟨[.define "twice" ["x"] [.result (some doubled)]]⟩

def callsTwiceTokens : List Token :=
  [⟨.identifier, .text "twice", 1⟩, ⟨.symbol .openParen, .text "(", 1⟩, ⟨.number, .number 2, 1⟩,
    ⟨.symbol .closeParen, .text ")", 1⟩, Token.final 1]

def callsTwiceProgram : Program :=
  ⟨[.evaluate (.call "twice" [.literal (.int 2)])]⟩

theorem Machine.runSource_calls_earlier_function :
    compile "twice(2)" = .ok callsTwiceProgram ∧
      ∃ depth machine, Reaches Run.roundLimit
          (((new {}).afterSources [definesTwice]).beginning callsTwiceProgram)
          ⟨.evaluation doubled, depth, machine⟩ ∧
        machine.scopes.length = 2 ∧ doubled.isForeign = false ∧
        Run.Holds Value.IsRead machine.scopes := by
  have defined : compile definesTwice = .ok definesTwiceProgram :=
    compile_eq_ok_iff.mpr ⟨definesTwiceTokens,
      tokenize_eq_ok_iff.mpr ⟨by decide +kernel, by decide +kernel⟩, rfl⟩
  have compiled : compile "twice(2)" = .ok callsTwiceProgram :=
    compile_eq_ok_iff.mpr ⟨callsTwiceTokens,
      tokenize_eq_ok_iff.mpr ⟨by decide +kernel, by decide +kernel⟩, rfl⟩
  have left : (new {}).afterSources [definesTwice] =
      ((new {}).runProgram definesTwiceProgram).2 := by
    change ((new {}).runSource definesTwice).2 = _
    rw [runSource, defined]
  have result := (runSource_meets_no_foreign_node {} [definesTwice] compiled).2.2
  rw [left] at result ⊢
  have reached : ∃ machine, Reaches Run.roundLimit
      (((new {}).runProgram definesTwiceProgram).2.beginning callsTwiceProgram)
      ⟨.evaluation doubled, 597, machine⟩ ∧ machine.scopes.length = 2 :=
    ⟨_, .head .firstStatement (.head .evaluated (.head (.called rfl rfl)
      (.head .firstStatement (.head .result .refl)))), rfl⟩
  obtain ⟨machine, reaches, height⟩ := reached
  obtain ⟨known, held, _⟩ := result _ reaches
  exact ⟨compiled, 597, machine, reaches, height, known doubled rfl, held⟩

/-! ### Printing -/

theorem Run.run_discard_perform_print [Limits] (values : List Value) (machine : Machine) :
    (discard (perform .print values)).run.run machine = (printLine values).run.run machine := by
  cases ran : (printLine values).run.run machine with
  | mk ended left =>
      cases ended with
      | ok _ => exact run_bind_ok (run_bind_ok ran fun _ => pure Value.none) fun _ => pure ()
      | error stop => exact run_bind_error (run_bind_error ran fun _ => pure Value.none) fun _ => pure ()

/-- Where the services are in place, a print statement prints its values. -/
theorem Run.run_print [Limits] {rounds depth : Nat} {arguments : List Expr} {values : List Value}
    {machine left : Machine} (unclobbered : Unclobbered left.scopes)
    (evaluated : (arguments.mapM (evaluate rounds depth)).run.run machine = (.ok values, left)) :
    (execute rounds (depth + 1) (.print arguments)).run.run machine =
      (printLine values).run.run left := by
  have printer : Entries.get? "printline" left.globals = some (.service 0 .print) :=
    unclobbered.globals .printlineWord
  have found : (lookupGlobal "printline").run.run left = (.ok (.service 0 .print), left) := by
    rw [lookupGlobal, run_get_bind, printer]
    rfl
  rw [execute, run_bind_ok evaluated, run_bind_ok found]
  exact run_discard_perform_print values left

/-- Whatever source texts are run one after another on a new machine, some of which may fail, the
global scope keeps the services that are named like keywords and no other scope binds such a name,
at the end of the texts and, before and after the work, at every moment of the next one. So a print
statement whose arguments have values prints them, wherever it stands. -/
theorem Machine.afterSources_unclobbered [Limits] (console : Console) (before : List String) :
    Run.Unclobbered ((new console).afterSources before).scopes ∧
    ∀ source program, compile source = .ok program → ∀ moment,
      Reaches Run.roundLimit (((new console).afterSources before).beginning program) moment →
      Run.Unclobbered moment.machine.scopes ∧
      Run.Unclobbered (moment.left Run.roundLimit).scopes ∧
      ∀ arguments depth values left, moment.work = .execution (.print arguments) →
        moment.depth = depth + 1 →
        (arguments.mapM (Run.evaluate Run.roundLimit depth)).run.run moment.machine =
          (.ok values, left) →
        (Run.execute Run.roundLimit moment.depth (.print arguments)).run.run moment.machine =
          (Run.printLine values).run.run left := by
  refine ⟨(guarded_afterSources before (guarded_new console)).unclobbered, ?_⟩
  intro source program compiled moment reaches
  have order := inOrder_of_reaches console before compiled reaches
  obtain ⟨height, guarded⟩ := order.scopes
  refine ⟨guarded.unclobbered, ?_, ?_⟩
  · obtain ⟨height, guarded⟩ := order.left Run.roundLimit
    exact guarded.unclobbered
  · intro arguments depth values left same level evaluated
    have read := order.work
    rw [same] at read
    have areRead := (Stmt.AreRead.isRead read List.mem_cons_self).expressions
    have evaluates := (Run.guards_evaluate_and_execute Run.roundLimit depth).1
    have guardedThen := ((Run.guards_evaluations evaluates areRead).ended guarded evaluated).1
    rw [level]
    exact Run.run_print guardedThen.unclobbered evaluated

def printsTwoTokens : List Token :=
  [⟨.keyword .printlineWord, .text "printline", 1⟩, ⟨.symbol .openParen, .text "(", 1⟩,
    ⟨.number, .number 2, 1⟩, ⟨.symbol .closeParen, .text ")", 1⟩, Token.final 1]

/-- A text that binds the name of a service is refused, and the next text prints. -/
theorem Machine.prints_after_refused_binding :
    ((new {}).runSource "local printline = 1").1.isSome = true ∧
      compile "printline(2)" = .ok ⟨[.print [.literal (.int 2)]]⟩ ∧
      ∃ depth machine, Reaches Run.roundLimit
          (((new {}).afterSources ["local printline = 1"]).beginning ⟨[.print [.literal (.int 2)]]⟩)
          ⟨.execution (.print [.literal (.int 2)]), depth, machine⟩ ∧
        Run.Unclobbered machine.scopes ∧
        (Run.execute Run.roundLimit depth (.print [.literal (.int 2)])).run.run machine =
          (Run.printLine [.int 2]).run.run machine := by
  have compiled : compile "printline(2)" = .ok ⟨[.print [.literal (.int 2)]]⟩ :=
    compile_eq_ok_iff.mpr ⟨printsTwoTokens,
      tokenize_eq_ok_iff.mpr ⟨by decide +kernel, by decide +kernel⟩, rfl⟩
  have result := (afterSources_unclobbered {} ["local printline = 1"]).2 "printline(2)" _ compiled
  refine ⟨by decide +kernel, compiled, _, _, .head .firstStatement .refl, ?_⟩
  obtain ⟨unclobbered, _, prints⟩ := result _ (.head .firstStatement .refl)
  exact ⟨unclobbered, prints _ _ _ _ rfl rfl rfl⟩

end IndentScript
