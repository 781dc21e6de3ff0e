import IndentScript.Proofs.ScopeChains
import IndentScript.Proofs.Seclusion
import IndentScript.Proofs.SourceTrees

/-!
Conditions of loops. What a round of a loop sets is gone at its end, so the next test of the condition
is made on the same variables, and only the identities that are given next are others. A condition
that looks at nothing outside goes the same way at every test, and a loop whose condition holds at the
first one ends by its body or not at all.

To read nothing is not enough for that. A condition can make a function and show its place in memory
in a text, and the next test shows another place.
-/

namespace IndentScript

/-! ### The tests of a loop -/

open Run in
/-- The loop that starts on the machine comes to another machine before a test, with so many rounds
left. -/
inductive LoopAt [Limits] (rounds depth : Nat) (condition : Expr) (body : Block) (machine : Machine) :
    Nat → Machine → Prop where
  | first : LoopAt rounds depth condition body machine rounds machine
  | later {left : Nat} {tested next : Machine} :
    LoopAt rounds depth condition body machine (left + 1) tested →
    Starts rounds ⟨.looping condition body (left + 1), depth, tested⟩
      ⟨.looping condition body left, depth, next⟩ →
    LoopAt rounds depth condition body machine left next

open Run in
/-- The loop that starts on the machine ends so, after a test that holds, because its body is stopped,
or its rounds are used up. -/
inductive EndsFromBody [Limits] (rounds depth : Nat) (condition : Expr) (body : Block)
    (machine : Machine) : Except Stop Unit → Prop where
  | leave {left : Nat} {tested middle : Machine} {found : Value} :
    LoopAt rounds depth condition body machine (left + 1) tested →
    (evaluate rounds depth condition).run.run tested = (.ok found, middle) → found.isTrue = true →
    (runBlock (execute rounds depth) body).outcome (middle.enter []) = .error .leave →
    EndsFromBody rounds depth condition body machine (.ok ())
  | stop {left : Nat} {tested middle : Machine} {found : Value} {stop : Stop} :
    LoopAt rounds depth condition body machine (left + 1) tested →
    (evaluate rounds depth condition).run.run tested = (.ok found, middle) → found.isTrue = true →
    (runBlock (execute rounds depth) body).outcome (middle.enter []) = .error stop →
    stop ≠ .leave → stop ≠ .next →
    EndsFromBody rounds depth condition body machine (.error stop)
  | unfinished {last : Machine} :
    LoopAt rounds depth condition body machine 0 last →
    EndsFromBody rounds depth condition body machine (.error .unfinished)

section

variable [Limits] {rounds depth left : Nat} {condition : Expr} {body : Block} {machine tested : Machine}

open Run in
/-- Between two tests no variable changes and no identity is taken back. -/
theorem LoopAt.unchanged (reached : LoopAt rounds depth condition body machine left tested)
    (numbered : Moment.IsNumbered ⟨.looping condition body rounds, depth, machine⟩) :
    tested.scopes = machine.scopes ∧ machine.nextIdentity ≤ tested.nextIdentity ∧
      Moment.IsNumbered ⟨.looping condition body left, depth, tested⟩ := by
  induction reached with
  | first => exact ⟨rfl, Nat.le_refl _, numbered⟩
  | later _ starts ih =>
      -- the test changes no scope, and the scope of the round is gone with the round
      obtain ⟨same, grown, numberedThen⟩ := ih
      have numberedNext := numberedThen.starts starts
      cases starts with
      | loopOn ran _ ranRound =>
          obtain ⟨test, inBody⟩ := below_append.mp numberedThen.work
          obtain ⟨grows, heldThen, _⟩ := (numbers_evaluate test).ended numberedThen.machine ran
          obtain ⟨growsOn, _, _⟩ :=
            (numbers_round (List.forall_mem_nil _) (inBody.mono grows)).ended heldThen ranRound
          have sameMiddle := (unchanging_evaluate rounds depth condition).scopes_of_run ran
          have sameNext :=
            (unchanging_round (preserves_execute rounds depth) [] body).scopes_of_run ranRound
          exact ⟨sameNext.trans (sameMiddle.trans same),
            Nat.le_trans grown (Nat.le_trans grows growsOn), numberedNext⟩

/-! ### The tests of a secluded condition -/

open Run in
/-- At every test a condition that looks at nothing outside is as true as at the first one. -/
theorem LoopAt.test_alike {first : Value}
    (reached : LoopAt rounds depth condition body machine left tested)
    (numbered : Moment.IsNumbered ⟨.looping condition body rounds, depth, machine⟩)
    (secluded : Moment.IsSecluded rounds machine.nextIdentity ⟨.evaluation condition, depth, machine⟩)
    (evaluated : (evaluate rounds depth condition).outcome machine = .ok first) :
    ∃ found, (evaluate rounds depth condition).outcome tested = .ok found ∧
      found.isTrue = first.isTrue := by
  obtain ⟨same, grown, _⟩ := reached.unchanged numbered
  obtain ⟨distance, given⟩ := Nat.exists_eq_add_of_le grown
  have test : Moment.IsNumbered ⟨.evaluation condition, depth, machine⟩ :=
    ⟨numbered.machine, (below_append.mp numbered.work).1⟩
  have alike := outcome_evaluate_shifted test secluded same given
  rw [evaluated] at alike
  exact ⟨_, alike, first.isTrue_renamed⟩

open Run in
/-- If the condition holds at every test, the loop ends from its body. -/
theorem LoopAt.endsFromBody (reached : LoopAt rounds depth condition body machine left tested)
    (holds : ∀ left tested, LoopAt rounds depth condition body machine (left + 1) tested →
      ∃ found, (evaluate rounds depth condition).outcome tested = .ok found ∧ found.isTrue = true) :
    EndsFromBody rounds depth condition body machine
      ((whileTrue (evaluate rounds depth condition)
        (round [] (runBlock (execute rounds depth) body)) left).outcome tested) := by
  -- by induction on the rounds that are left, each of which begins with a test that holds
  induction left generalizing tested with
  | zero => exact .unfinished reached
  | succ left ih =>
      obtain ⟨found, evaluated, isTrue⟩ := holds left tested reached
      have ran : (evaluate rounds depth condition).run.run tested =
        (.ok found, (evaluate rounds depth condition).after tested) := Prod.ext evaluated rfl
      rw [whileTrue, outcome, run_bind_ok ran, if_pos isTrue]
      generalize (evaluate rounds depth condition).after tested = middle at ran
      have rounded := outcome_round [] (runBlock (execute rounds depth) body) middle
      cases ranRound : (round [] (runBlock (execute rounds depth) body)).run.run middle with
      | mk ended last =>
          rw [outcome, ranRound] at rounded
          cases ended with
          | ok goesOn =>
              rw [run_bind_ok ranRound]
              cases goesOn with
              | true => exact ih (.later reached (.loopOn ran isTrue ranRound))
              | false => exact .leave reached ran isTrue (loopEnd_eq_false rounded.symm)
          | error stop =>
              rw [run_bind_error ranRound]
              obtain ⟨stopped, notLeave, notNext⟩ := loopEnd_eq_error rounded.symm
              exact .stop reached ran isTrue stopped notLeave notNext

end

/-! ### Programs of source texts

Their trees have no identities, since their constants are numbers, texts and truth values. So all that
takes place when a text is run on a numbered machine is numbered. -/

theorem Expr.IsRead.identities {expression : Expr} (read : expression.IsRead) :
    expression.identities = [] := by
  induction read with
  | binary _ _ _ inLeft inRight => rw [Expr.identities, inLeft, inRight, List.append_nil]
  | table _ fields =>
      rw [Expr.identities, Expr.identitiesOfFields_eq, List.flatMap_map, List.flatMap_eq_nil_iff]
      exact fields
  | call _ arguments =>
      rw [Expr.identities, Expr.identitiesOfAll_eq, List.flatMap_eq_nil_iff]
      exact arguments
  | _ => rfl

mutual

theorem Stmt.IsRead.identities {statement : Stmt} (own : statement.IsRead)
    (inner : ∀ body ∈ statement.bodies, Stmt.AreRead body) : statement.identities = [] := by
  obtain ⟨read, _⟩ := own
  cases statement with
  | print arguments =>
      rw [Stmt.identities, Expr.identitiesOfAll_eq, List.flatMap_eq_nil_iff]
      exact fun argument among => (read argument among).identities
  | assign name value => exact (read value List.mem_cons_self).identities
  | branch condition body arms otherwise =>
      obtain ⟨test, tests⟩ := List.forall_mem_cons.mp read
      obtain ⟨first, others⟩ := List.forall_mem_cons.mp inner
      obtain ⟨bodies, last⟩ := List.forall_mem_append.mp others
      rw [Stmt.identities, test.identities, first.identities,
        Stmt.identitiesOfArms_of_isRead (List.forall_mem_map.mp tests) (List.forall_mem_map.mp bodies),
        Stmt.identitiesOfOtherwise_of_areRead last]
      rfl
  | count name limit body =>
      rw [Stmt.identities, (read limit List.mem_cons_self).identities,
        (inner body List.mem_cons_self).identities]
      rfl
  | loop condition body =>
      rw [Stmt.identities, (read condition List.mem_cons_self).identities,
        (inner body List.mem_cons_self).identities]
      rfl
  | define name parameters body => exact (inner body List.mem_cons_self).identities
  | result value =>
      cases value with
      | none => rfl
      | some value => exact (read value List.mem_cons_self).identities
  | evaluate value => exact (read value List.mem_cons_self).identities
  | leave | next | load => rfl

theorem Stmt.AreRead.identities {block : List Stmt} (read : Stmt.AreRead block) :
    Stmt.identitiesOfAll block = [] := by
  cases block with
  | nil => rfl
  | cons statement rest =>
      have first := Stmt.IsRead.identities (read.isRead List.mem_cons_self)
        fun body isBody => read.body List.mem_cons_self isBody
      have others := (read.mono (List.subset_cons_self statement rest)).identities
      rw [Stmt.identitiesOfAll, first, others]
      rfl

theorem Stmt.identitiesOfArms_of_isRead {arms : List (Expr × List Stmt)}
    (tests : ∀ arm ∈ arms, arm.1.IsRead) (bodies : ∀ arm ∈ arms, Stmt.AreRead arm.2) :
    Stmt.identitiesOfArms arms = [] := by
  cases arms with
  | nil => rfl
  | cons arm rest =>
      obtain ⟨condition, body⟩ := arm
      obtain ⟨test, others⟩ := List.forall_mem_cons.mp tests
      obtain ⟨inBody, inOthers⟩ := List.forall_mem_cons.mp bodies
      rw [Stmt.identitiesOfArms, test.identities, Stmt.AreRead.identities inBody,
        Stmt.identitiesOfArms_of_isRead others inOthers]
      rfl

theorem Stmt.identitiesOfOtherwise_of_areRead {otherwise : Option (List Stmt)}
    (read : ∀ body ∈ otherwise.toList, Stmt.AreRead body) :
    Stmt.identitiesOfOtherwise otherwise = [] := by
  cases otherwise with
  | none => rfl
  | some body => exact Stmt.AreRead.identities (read body List.mem_cons_self)

end

/-- The run of a source text on a numbered machine is numbered. -/
theorem Machine.IsNumbered.read {machine : Machine} (numbered : machine.IsNumbered)
    {source : String} {tokens : List Token} {nesting : Nat} {program : Program}
    (lexed : tokenize source = .ok tokens) (parsed : parseWithin nesting tokens = .ok program)
    (depth : Nat) : Moment.IsNumbered ⟨.executions program.statements, depth, machine⟩ := by
  have read := Stmt.areRead_of_parseWithin (carrying_of_tokenize lexed) parsed
  refine ⟨numbered, ?_⟩
  rw [Work.identities, read.identities]
  exact List.forall_mem_nil _

/-! ### Loops -/

section

variable [Limits]

open Run in
/-- In a run that is numbered, let a loop be reached whose condition holds at the first test and looks
at nothing outside: it neither reads a line or the time nor shows the place in memory of something
that it has made itself. Then the condition holds at every test, and the loop ends when a `break`
stops its body, or is stopped with the body by a result or a failure, or goes on until its rounds
are used up. -/
theorem loop_ends_from_body {rounds depth : Nat} {condition : Expr} {body : Block} {start : Moment}
    {machine : Machine} {first : Value} (numbered : start.IsNumbered)
    (reaches : Reaches rounds start ⟨.execution (.loop condition body), depth + 1, machine⟩)
    (secluded : Moment.IsSecluded rounds machine.nextIdentity ⟨.evaluation condition, depth, machine⟩)
    (evaluated : (evaluate rounds depth condition).outcome machine = .ok first)
    (holds : first.isTrue = true) :
    (∀ left tested, LoopAt rounds depth condition body machine (left + 1) tested →
      ∃ found, (evaluate rounds depth condition).outcome tested = .ok found ∧
        found.isTrue = true) ∧
    EndsFromBody rounds depth condition body machine
      ((execute rounds (depth + 1) (.loop condition body)).outcome machine) := by
  have looping := numbered.reaches (reaches.tail .loop)
  have tests : ∀ left tested, LoopAt rounds depth condition body machine (left + 1) tested →
      ∃ found, (evaluate rounds depth condition).outcome tested = .ok found ∧
        found.isTrue = true := by
    intro left tested reached
    obtain ⟨found, ended, alike⟩ := reached.test_alike looping secluded evaluated
    exact ⟨found, ended, alike.trans holds⟩
  exact ⟨tests, LoopAt.first.endsFromBody tests⟩

/-- An expression that calls nothing, makes no table and fills no template in. -/
def Expr.isQuiet : Expr → Bool
  | .literal _ | .variable _ | .misplaced _ | .lacking _ _ => true
  | .binary left operator right => operator ≠ .percent && left.isQuiet && right.isQuiet
  | .table _ | .call _ _ => false

/-- The work that a quiet expression comes to is that of its parts. -/
theorem Expr.quiet_of_reaches {rounds depth : Nat} {expression : Expr} {machine : Machine}
    {next : Moment} (quiet : expression.isQuiet = true)
    (reaches : Reaches rounds ⟨.evaluation expression, depth, machine⟩ next) :
    ∃ part, part.isQuiet = true ∧ next.work = .evaluation part := by
  rcases reaches.cases_head with rfl | ⟨middle, starts, rest⟩
  · exact ⟨expression, quiet, rfl⟩
  · cases expression with
    | binary left operator right =>
        rw [isQuiet, Bool.and_eq_true, Bool.and_eq_true] at quiet
        cases starts with
        | left => exact quiet_of_reaches quiet.1.2 rest
        | right => exact quiet_of_reaches quiet.2 rest
    | table | call => cases quiet
    | _ => cases starts

theorem Expr.readsNothing_of_isQuiet {rounds depth : Nat} {expression : Expr} {machine : Machine}
    (quiet : expression.isQuiet = true) :
    Moment.ReadsNothing rounds ⟨.evaluation expression, depth, machine⟩ := by
  intro next reaches reads
  obtain ⟨part, quietPart, isPart⟩ := quiet_of_reaches quiet reaches
  cases reads with
  | call =>
      cases isPart
      cases quietPart
  | print => cases isPart

theorem Expr.isSecluded_of_isQuiet {rounds since depth : Nat} {expression : Expr}
    {machine : Machine} (quiet : expression.isQuiet = true) :
    Moment.IsSecluded rounds since ⟨.evaluation expression, depth, machine⟩ := by
  refine ⟨readsNothing_of_isQuiet quiet, ?_⟩
  intro next reaches shows
  obtain ⟨part, quietPart, isPart⟩ := quiet_of_reaches quiet reaches
  cases shows with
  | template =>
      cases isPart
      cases quietPart

end

def counter : String :=
  "local i = 0\nwhile (i < 3):\n    local i = i + 1\n"

def counterTokens : List Token :=
  [⟨.keyword .localWord, .text "local", 1⟩, ⟨.identifier, .text "i", 1⟩,
    ⟨.symbol .assign, .text "=", 1⟩, ⟨.number, .number 0, 1⟩,
    ⟨.keyword .whileWord, .text "while", 2⟩, ⟨.symbol .openParen, .text "(", 2⟩,
    ⟨.identifier, .text "i", 2⟩, ⟨.symbol .less, .text "<", 2⟩, ⟨.number, .number 3, 2⟩,
    ⟨.symbol .closeParen, .text ")", 2⟩, ⟨.symbol .colon, .text ":", 2⟩, Token.opening 3,
    ⟨.keyword .localWord, .text "local", 3⟩, ⟨.identifier, .text "i", 3⟩,
    ⟨.symbol .assign, .text "=", 3⟩, ⟨.identifier, .text "i", 3⟩, ⟨.symbol .plus, .text "+", 3⟩,
    ⟨.number, .number 1, 3⟩, Token.closing 3, Token.final 3]

def counterTest : Expr :=
  .binary (.variable "i") .less (.literal (.int 3))

def counterBody : Block :=
  [.assign "i" (.binary (.variable "i") .plus (.literal (.int 1)))]

def counterProgram : Program :=
  ⟨[.assign "i" (.literal (.int 0)), .loop counterTest counterBody]⟩

def counting : Machine :=
  { Machine.new {} with scopes := [Machine.services ++ [("i", .int 0)]] }

open Run in
/-- The loop goes on until its rounds are used up. -/
theorem loop_ends_from_body_counter :
    tokenize counter = .ok counterTokens ∧
      parseWithin 10 counterTokens = .ok counterProgram ∧
      (evaluate 5 3 counterTest).outcome counting = .ok (.bool true) ∧
      (∀ left tested, LoopAt 5 3 counterTest counterBody counting (left + 1) tested →
        ∃ found, (evaluate 5 3 counterTest).outcome tested = .ok found ∧ found.isTrue = true) ∧
      EndsFromBody 5 3 counterTest counterBody counting (.error .unfinished) := by
  have lexed : tokenize counter = .ok counterTokens :=
    tokenize_eq_ok_iff.mpr ⟨by decide +kernel, by decide +kernel⟩
  have parsed : parseWithin 10 counterTokens = .ok counterProgram := rfl
  have numbered := (Machine.isNumbered_new {}).read lexed parsed 4
  have ran : (execute 5 4 (.assign "i" (.literal (.int 0)))).run.run (Machine.new {}) =
    (.ok (), counting) := rfl
  have reaches : Reaches 5 ⟨.executions counterProgram.statements, 4, Machine.new {}⟩
      ⟨.execution (.loop counterTest counterBody), 4, counting⟩ :=
    (Relation.ReflTransGen.single (.otherStatements ran)).tail .firstStatement
  have quiet : counterTest.isQuiet = true := rfl
  have evaluated : (evaluate 5 3 counterTest).outcome counting = .ok (.bool true) := rfl
  have unfinished : (execute 5 4 (.loop counterTest counterBody)).outcome counting =
    .error .unfinished := rfl
  obtain ⟨tests, ends⟩ :=
    loop_ends_from_body numbered reaches (Expr.isSecluded_of_isQuiet quiet) evaluated rfl
  rw [unfinished] at ends
  exact ⟨lexed, parsed, evaluated, tests, ends⟩

/-! ### Places in memory -/

/-- Work reads nothing if it does not do so itself and its parts read nothing. -/
theorem Moment.ReadsNothing.of_parts [Limits] {rounds : Nat} {moment : Moment}
    (own : ¬moment.Reads rounds)
    (parts : ∀ next, Starts rounds moment next → next.ReadsNothing rounds) :
    moment.ReadsNothing rounds := by
  intro later reaches
  rcases reaches.cases_head with rfl | ⟨next, starts, rest⟩
  · exact own
  · exact parts next starts later rest

def makerBody : Block :=
  [.define "g" [] [.result (some (.literal (.int 0)))], .result (some (.variable "g"))]

/-- Compares the text of a function that is made now with the text of a place in memory. -/
def placeTest : Expr :=
  .binary (.binary (.literal (.text "%s")) .percent (.call "make" [])) .less
    (.literal (.text "<interpreter.FuncDef object at 0x7f0000000060>"))

def placeBody : Block :=
  [.assign "i" (.literal (.int 1))]

def placeProgram : Block :=
  [.define "make" [] makerBody, .loop placeTest placeBody]

section

variable [Limits] {rounds depth : Nat} {machine : Machine}

theorem readsNothing_makerBody :
    Moment.ReadsNothing rounds ⟨.executions makerBody, depth, machine⟩ := by
  refine .of_parts (by rintro ⟨⟩) ?_
  intro next starts
  cases starts with
  | firstStatement =>
      refine .of_parts (by rintro ⟨⟩) ?_
      intro next starts
      cases starts
  | otherStatements =>
      refine .of_parts (by rintro ⟨⟩) ?_
      intro next starts
      cases starts with
      | firstStatement =>
          refine .of_parts (by rintro ⟨⟩) ?_
          intro next starts
          cases starts with
          | result => exact Expr.readsNothing_of_isQuiet rfl
      | otherStatements =>
          refine .of_parts (by rintro ⟨⟩) ?_
          intro next starts
          cases starts

open Run in
theorem readsNothing_placeTest {identity : Nat}
    (known : find? "make" machine.scopes = some (.function identity [] makerBody)) :
    Moment.ReadsNothing rounds ⟨.evaluation placeTest, depth, machine⟩ := by
  refine .of_parts (by rintro ⟨⟩) ?_
  intro next starts
  cases starts with
  | right => exact Expr.readsNothing_of_isQuiet rfl
  | left =>
      refine .of_parts (by rintro ⟨⟩) ?_
      intro next starts
      cases starts with
      | left => exact Expr.readsNothing_of_isQuiet rfl
      | right ran =>
          have kept := (unchanging_evaluate rounds _ _).scopes_of_run ran
          rw [← kept] at known
          apply Moment.ReadsNothing.of_parts
          · intro reads
            cases reads with
            | call found =>
                rw [known] at found
                cases found
          · intro next starts
            cases starts with
            | arguments =>
                refine .of_parts (by rintro ⟨⟩) ?_
                intro next starts
                cases starts
            | called found =>
                rw [known] at found
                cases found
                exact readsNothing_makerBody

end

def placing : Machine :=
  { Machine.new {} with
    scopes := [Machine.services ++ [("make", .function 4 [] makerBody)]]
    nextIdentity := 5 }

open Run in
/-- The place of the function that the first test makes lies before the one in the text, and that of
the function that the second test makes does not. The condition reads nothing and holds at the first
test, and the loop ends, though nothing stops its body. -/
theorem loop_ended_by_shown_place :
    let start : Moment := ⟨.executions placeProgram, 20, Machine.new {}⟩
    start.IsNumbered ∧ Reaches 50 start ⟨.execution (.loop placeTest placeBody), 20, placing⟩ ∧
      Moment.ReadsNothing 50 ⟨.evaluation placeTest, 19, placing⟩ ∧
      (∃ first, (evaluate 50 19 placeTest).outcome placing = .ok first ∧ first.isTrue = true) ∧
      (execute 50 20 (.loop placeTest placeBody)).outcome placing = .ok () ∧
      ¬EndsFromBody 50 19 placeTest placeBody placing (.ok ()) := by
  intro start
  have ran : (execute 50 20 (.define "make" [] makerBody)).run.run (Machine.new {}) =
    (.ok (), placing) := rfl
  have ends : ((evaluate 50 19 placeTest).outcome placing).toOption.any Value.isTrue = true ∧
      ((execute 50 20 (.loop placeTest placeBody)).outcome placing).toBool = true := by
    decide +kernel
  obtain ⟨holds, ended⟩ := ends
  refine ⟨⟨Machine.isNumbered_new {}, ?_⟩, ?_, readsNothing_placeTest rfl, ?_, ?_, ?_⟩
  · have nothing : Work.identities (.executions placeProgram) = [] := rfl
    rw [nothing]
    exact List.forall_mem_nil _
  · exact (Relation.ReflTransGen.single (.otherStatements ran)).tail .firstStatement
  · cases outcome : (evaluate 50 19 placeTest).outcome placing with
    | ok first =>
        rw [outcome] at holds
        exact ⟨first, rfl, holds⟩
    | error stop =>
        rw [outcome] at holds
        cases holds
  · cases outcome : (execute 50 20 (.loop placeTest placeBody)).outcome placing with
    | ok done => rfl
    | error stop =>
        rw [outcome] at ended
        cases ended
  · intro ends
    cases ends with
    | leave _ _ _ stopped => cases stopped

end IndentScript
