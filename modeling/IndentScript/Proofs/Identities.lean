import IndentScript.Proofs.HeldValues
import IndentScript.Proofs.Moments

/-!
Identities are given once. The identities of a tree are those of its constant tables and numbers; those
of a value are its own and those of all that is in it, with the body of a function. A machine is numbered
when all that it holds has an identity that was given before. Runs of numbered trees keep machines
numbered and never take an identity back, so that every moment of a run is numbered if the first one is.
-/

namespace IndentScript

/-! ### Identities of trees and values -/

mutual

def Literal.identities : Literal → List Nat
  | .float (.nan payload) => [payload]
  | .table identity entries => identity :: Literal.identitiesOfFields entries
  | _ => []

def Literal.identitiesOfFields : List (String × Literal) → List Nat
  | [] => []
  | (_, literal) :: rest => literal.identities ++ Literal.identitiesOfFields rest

end

mutual

def Expr.identities : Expr → List Nat
  | .literal value => value.identities
  | .binary left _ right => left.identities ++ right.identities
  | .table entries => Expr.identitiesOfFields entries
  | .call _ arguments => Expr.identitiesOfAll arguments
  | _ => []

def Expr.identitiesOfFields : List (String × Expr) → List Nat
  | [] => []
  | (_, expression) :: rest => expression.identities ++ Expr.identitiesOfFields rest

def Expr.identitiesOfAll : List Expr → List Nat
  | [] => []
  | expression :: rest => expression.identities ++ Expr.identitiesOfAll rest

end

mutual

def Stmt.identities : Stmt → List Nat
  | .print arguments => Expr.identitiesOfAll arguments
  | .assign _ value => value.identities
  | .branch condition body arms otherwise =>
    condition.identities ++ Stmt.identitiesOfAll body ++ Stmt.identitiesOfArms arms
      ++ Stmt.identitiesOfOtherwise otherwise
  | .count _ limit body => limit.identities ++ Stmt.identitiesOfAll body
  | .loop condition body => condition.identities ++ Stmt.identitiesOfAll body
  | .define _ _ body => Stmt.identitiesOfAll body
  | .result (some value) => value.identities
  | .evaluate value => value.identities
  | _ => []

def Stmt.identitiesOfAll : List Stmt → List Nat
  | [] => []
  | statement :: rest => statement.identities ++ Stmt.identitiesOfAll rest

def Stmt.identitiesOfArms : List (Expr × List Stmt) → List Nat
  | [] => []
  | (condition, body) :: rest =>
    condition.identities ++ Stmt.identitiesOfAll body ++ Stmt.identitiesOfArms rest

def Stmt.identitiesOfOtherwise : Option (List Stmt) → List Nat
  | none => []
  | some body => Stmt.identitiesOfAll body

end

mutual

def Value.identities : Value → List Nat
  | .float (.nan payload) => [payload]
  | .table identity entries => identity :: Value.identitiesOfFields entries
  | .function identity _ body => identity :: Stmt.identitiesOfAll body
  | .service identity _ => [identity]
  | _ => []

def Value.identitiesOfFields : List (String × Value) → List Nat
  | [] => []
  | (_, value) :: rest => value.identities ++ Value.identitiesOfFields rest

end

def Stop.identities : Stop → List Nat
  | .result value => value.identities
  | _ => []

def Work.identities : Work → List Nat
  | .evaluation expression => expression.identities
  | .evaluations expressions => Expr.identitiesOfAll expressions
  | .execution statement => statement.identities
  | .executions block => Stmt.identitiesOfAll block
  | .choice otherwise arms => Stmt.identitiesOfAll otherwise ++ Stmt.identitiesOfArms arms
  | .counting _ body _ _ => Stmt.identitiesOfAll body
  | .looping condition body _ => condition.identities ++ Stmt.identitiesOfAll body

theorem Expr.identitiesOfAll_eq (expressions : List Expr) :
    identitiesOfAll expressions = expressions.flatMap identities := by
  induction expressions with
  | nil => rfl
  | cons expression rest ih => rw [identitiesOfAll, ih, List.flatMap_cons]

theorem Expr.identitiesOfFields_eq (entries : List (String × Expr)) :
    identitiesOfFields entries = (entries.map Prod.snd).flatMap identities := by
  induction entries with
  | nil => rfl
  | cons entry rest ih =>
      obtain ⟨name, expression⟩ := entry
      rw [identitiesOfFields, ih, List.map_cons, List.flatMap_cons]

theorem Stmt.identitiesOfAll_eq (block : Block) : identitiesOfAll block = block.flatMap identities := by
  induction block with
  | nil => rfl
  | cons statement rest ih => rw [identitiesOfAll, ih, List.flatMap_cons]

theorem Value.identitiesOfFields_eq (entries : List (String × Value)) :
    identitiesOfFields entries = entries.flatMap fun entry => entry.2.identities := by
  induction entries with
  | nil => rfl
  | cons entry rest ih =>
      obtain ⟨name, value⟩ := entry
      rw [identitiesOfFields, ih, List.flatMap_cons]

theorem Stmt.identitiesOfAll_getD (otherwise : Option Block) :
    identitiesOfAll (otherwise.getD []) = identitiesOfOtherwise otherwise := by
  cases otherwise with
  | none => rfl
  | some body => rfl

mutual

theorem Value.identities_ofLiteral (literal : Literal) :
    (Value.ofLiteral literal).identities = literal.identities := by
  cases literal with
  | float number => cases number <;> rfl
  | table identity entries =>
      rw [Value.ofLiteral, Value.identities, Value.identitiesOfFields_ofLiteralEntries]
      rfl
  | _ => rfl

theorem Value.identitiesOfFields_ofLiteralEntries (entries : List (String × Literal)) :
    Value.identitiesOfFields (Value.ofLiteralEntries entries) =
      Literal.identitiesOfFields entries := by
  cases entries with
  | nil => rfl
  | cons entry rest =>
      obtain ⟨name, literal⟩ := entry
      rw [Value.ofLiteralEntries, Value.identitiesOfFields, Value.identities_ofLiteral,
        Value.identitiesOfFields_ofLiteralEntries]
      rfl

end

/-! ### Numbered machines -/

abbrev Below (bound : Nat) (identities : List Nat) : Prop :=
  ∀ identity ∈ identities, identity < bound

theorem Below.mono {bound later : Nat} {identities : List Nat} (below : Below bound identities)
    (grows : bound ≤ later) : Below later identities :=
  fun identity among => Nat.lt_of_lt_of_le (below identity among) grows

theorem below_cons {bound identity : Nat} {identities : List Nat} :
    Below bound (identity :: identities) ↔ identity < bound ∧ Below bound identities :=
  List.forall_mem_cons

theorem below_append {bound : Nat} {first second : List Nat} :
    Below bound (first ++ second) ↔ Below bound first ∧ Below bound second :=
  List.forall_mem_append

theorem Below.of_mem {α : Type} {bound : Nat} {identities : α → List Nat} {items : List α}
    (below : Below bound (items.flatMap identities)) {item : α} (among : item ∈ items) :
    Below bound (identities item) :=
  fun identity member => below identity (List.mem_flatMap.mpr ⟨item, among, member⟩)

/-- All that the machine holds has an identity that was given before. So was zero, which is the payload
that arithmetic gives. -/
structure Machine.IsNumbered (machine : Machine) : Prop where
  given : 0 < machine.nextIdentity
  held : Run.Holds (fun value => Below machine.nextIdentity value.identities) machine.scopes

theorem Machine.isNumbered_new (console : Console) : (new console).IsNumbered := by
  constructor
  · exact Nat.zero_lt_succ 3
  · intro scope among
    cases List.mem_singleton.mp among
    change ∀ entry ∈ services, Below services.length entry.2.identities
    decide

theorem Machine.IsNumbered.grown {machine left : Machine} (numbered : machine.IsNumbered)
    (same : left.scopes = machine.scopes) (grows : machine.nextIdentity ≤ left.nextIdentity) :
    left.IsNumbered := by
  refine ⟨Nat.lt_of_lt_of_le numbered.given grows, ?_⟩
  intro scope among entry member
  rw [same] at among
  exact (numbered.held scope among entry member).mono grows

theorem Machine.IsNumbered.enter {machine : Machine} (numbered : machine.IsNumbered)
    {entries : Entries Value}
    (below : ∀ entry ∈ entries, Below machine.nextIdentity entry.2.identities) :
    (machine.enter entries).IsNumbered :=
  ⟨numbered.given, numbered.held.cons below⟩

theorem Value.identities_of_isBare {value : Value} (bare : value.isBare = true) :
    (∃ payload, value = .float (.nan payload)) ∨ value.identities = [] := by
  cases value with
  | table | function | service => cases bare
  | float number =>
      cases number with
      | nan payload => exact .inl ⟨payload, rfl⟩
      | _ => exact .inr rfl
  | _ => exact .inr rfl

theorem Run.distinguish_of_identities {value : Value} (nothing : value.identities = []) :
    distinguish value = pure value := by
  cases value with
  | float number =>
      cases number with
      | nan payload => cases nothing
      | _ => rfl
  | _ => rfl

theorem Number.Binary64.below_add {bound : Nat} (given : 0 < bound) (left right : Number.Binary64) :
    Below bound (Value.float (left.add right)).identities := by
  have zero : Below bound (Value.float (nan 0)).identities := List.forall_mem_singleton.mpr given
  have ratio : ∀ negative num den, Below bound (Value.float (ofRatio negative num den)).identities := by
    intro negative num den
    rw [ofRatio]
    split
    · exact List.forall_mem_nil _
    · exact List.forall_mem_nil _
  unfold add
  split
  · exact zero
  · exact zero
  · split
    · exact List.forall_mem_nil _
    · exact zero
  · exact List.forall_mem_nil _
  · exact List.forall_mem_nil _
  · dsimp only
    split
    · exact List.forall_mem_nil _
    · exact ratio _ _ _

namespace Run

section

variable {α β : Type} {bound : Nat} {made : α → List Nat} {madeNext : β → List Nat}

/-- On a numbered machine that has given all identities below the bound, the run leaves a numbered
machine and takes no identity back; what it gives and what stops it is made of given identities. -/
def Numbers (bound : Nat) (made : α → List Nat) (run : Run α) : Prop :=
  ∀ machine : Machine, bound ≤ machine.nextIdentity → machine.IsNumbered →
    machine.nextIdentity ≤ (run.after machine).nextIdentity ∧ (run.after machine).IsNumbered ∧
      Ends (fun found => Below (run.after machine).nextIdentity (made found))
        (fun stop => Below (run.after machine).nextIdentity stop.identities) (run.outcome machine)

theorem Numbers.pure {found : α} (below : Below bound (made found)) :
    Numbers bound made (Pure.pure found) :=
  fun _ given numbered => ⟨Nat.le_refl _, numbered, below.mono given⟩

theorem Numbers.throw {signal : Stop} (below : Below bound signal.identities) :
    Numbers bound made (throw signal) :=
  fun _ given numbered => ⟨Nat.le_refl _, numbered, below.mono given⟩

theorem Numbers.fail (cause : Fault) : Numbers bound made (fail cause) :=
  Numbers.throw (List.forall_mem_nil _)

theorem Numbers.ofExcept {computed : Except Fault α}
    (below : ∀ found, computed = .ok found → Below bound (made found)) :
    Numbers bound made (ofExcept computed) := by
  cases computed with
  | ok found => exact Numbers.pure (below found rfl)
  | error cause => exact Numbers.fail cause

theorem Numbers.mono {run : Run α} {later : Nat} (numbers : Numbers bound made run)
    (grows : bound ≤ later) : Numbers later made run :=
  fun machine given numbered => numbers machine (Nat.le_trans grows given) numbered

theorem Numbers.bind {first : Run α} {next : α → Run β} (numbers : Numbers bound made first)
    (numbersNext : ∀ found later, bound ≤ later → Below later (made found) →
      Numbers later madeNext (next found)) : Numbers bound madeNext (first >>= next) := by
  intro machine given numbered
  have firstEnds := numbers machine given numbered
  rw [after, outcome] at firstEnds
  rw [after, outcome]
  cases ran : first.run.run machine with
  | mk ended middle =>
      rw [ran] at firstEnds
      obtain ⟨grows, numberedThen, ends⟩ := firstEnds
      cases ended with
      | ok found =>
          rw [run_bind_ok ran]
          -- the bound of the rest is what the first run has left, so that its value is below it
          obtain ⟨growsNext, numberedLast, endsNext⟩ := numbersNext found middle.nextIdentity
            (Nat.le_trans given grows) ends middle (Nat.le_refl _) numberedThen
          exact ⟨Nat.le_trans grows growsNext, numberedLast, endsNext⟩
      | error signal =>
          rw [run_bind_error ran]
          exact ⟨grows, numberedThen, ends⟩

theorem Numbers.discard {run : Run α} (numbers : Numbers bound made run) :
    Numbers bound (fun _ => []) (discard run) :=
  numbers.bind fun _ _ _ _ => Numbers.pure (List.forall_mem_nil _)

theorem Numbers.forM {step : α → Run Unit} (items : List α)
    (numbers : ∀ item ∈ items, Numbers bound (fun _ => []) (step item)) :
    Numbers bound (fun _ => []) (items.forM step) := by
  induction items with
  | nil => exact Numbers.pure (List.forall_mem_nil _)
  | cons item rest ih =>
      apply (numbers item List.mem_cons_self).bind
      intro _ later grows _
      exact (ih fun other member => numbers other (List.mem_cons_of_mem item member)).mono grows

theorem Numbers.mapM {step : α → Run β} (items : List α)
    (numbers : ∀ item ∈ items, Numbers bound madeNext (step item)) :
    Numbers bound (fun found => found.flatMap madeNext) (items.mapM step) := by
  induction items with
  | nil => exact Numbers.pure (List.forall_mem_nil _)
  | cons item rest ih =>
      rw [List.mapM_cons]
      apply (numbers item List.mem_cons_self).bind
      intro first later grows below
      apply ((ih fun other member => numbers other (List.mem_cons_of_mem item member)).mono grows).bind
      intro others last growsOn belowOthers
      apply Numbers.pure
      rw [List.flatMap_cons]
      exact below_append.mpr ⟨below.mono growsOn, belowOthers⟩

/-! ### The machine -/

theorem numbers_lookup (name : String) : Numbers bound Value.identities (lookup name) := by
  intro machine given numbered
  rw [after, outcome, lookup, run_get_bind]
  cases found : find? name machine.scopes with
  | some value => exact ⟨Nat.le_refl _, numbered, numbered.held.find? found⟩
  | none => exact ⟨Nat.le_refl _, numbered, List.forall_mem_nil _⟩

theorem numbers_lookupGlobal (name : String) : Numbers bound (fun _ => []) (lookupGlobal name) := by
  intro machine given numbered
  rw [after, outcome, lookupGlobal, run_get_bind]
  cases Entries.get? name machine.globals with
  | some value => exact ⟨Nat.le_refl _, numbered, List.forall_mem_nil _⟩
  | none => exact ⟨Nat.le_refl _, numbered, List.forall_mem_nil _⟩

theorem numbers_assign (name : String) {value : Value} (below : Below bound value.identities) :
    Numbers bound (fun _ => []) (assign name value) :=
  fun _ given numbered => ⟨Nat.le_refl _,
    ⟨numbered.given, numbered.held.assigned name (below.mono given)⟩, List.forall_mem_nil _⟩

theorem numbers_newIdentity : Numbers bound (fun identity => [identity]) newIdentity :=
  fun _ _ numbered => ⟨Nat.le_succ _, numbered.grown rfl (Nat.le_succ _),
    List.forall_mem_singleton.mpr (Nat.lt_succ_self _)⟩

theorem Numbers.inScope {entries : Entries Value} {body : Run α}
    (below : ∀ entry ∈ entries, Below bound entry.2.identities) (numbers : Numbers bound made body) :
    Numbers bound made (inScope entries body) := by
  intro machine given numbered
  have inside : (machine.enter entries).IsNumbered :=
    numbered.enter fun entry member => (below entry member).mono given
  obtain ⟨grows, numberedThen, ends⟩ := numbers (machine.enter entries) given inside
  exact ⟨grows, ⟨numberedThen.given, numberedThen.held.drop 1⟩, ends⟩

/-! ### Services -/

theorem numbers_write (text : Content) : Numbers bound (fun _ => []) (write text) :=
  fun _ _ numbered => ⟨Nat.le_refl _, numbered.grown rfl (Nat.le_refl _), List.forall_mem_nil _⟩

theorem numbers_printLine [Limits] (values : List Value) :
    Numbers bound (fun _ => []) (printLine values) := by
  have printed : ∀ value ∈ values, Numbers bound (fun _ => []) (printValue value) := by
    intro value _
    have shown : Numbers bound (fun _ => []) (Run.ofExcept value.shown) :=
      Numbers.ofExcept fun _ _ => List.forall_mem_nil _
    exact shown.bind fun text _ _ _ => numbers_write _
  exact (Numbers.forM values printed).bind fun _ _ _ _ => numbers_write _

theorem numbers_readLine : Numbers bound (fun _ => []) readLine := by
  intro machine _ numbered
  rw [after, outcome, readLine, run_get_bind]
  cases machine.console.input with
  | nil => exact ⟨Nat.le_refl _, numbered, List.forall_mem_nil _⟩
  | cons line rest =>
      have taken : Machine.IsNumbered { machine with console.input := rest } :=
        numbered.grown rfl (Nat.le_refl _)
      cases line with
      | some text => exact ⟨Nat.le_refl _, taken, List.forall_mem_nil _⟩
      | none => exact ⟨Nat.le_refl _, taken, List.forall_mem_nil _⟩

theorem numbers_time : Numbers bound (fun now => (Value.float now).identities) time := by
  intro machine _ numbered
  exact ⟨Nat.le_refl _, numbered.grown rfl (Nat.le_refl _),
    Number.Binary64.below_add numbered.given _ _⟩

theorem numbers_sleep (length : Value) : Numbers bound (fun _ => []) (sleep length) := by
  have measured : Numbers bound (fun _ => []) (Run.ofExcept (sleepLength length)) :=
    Numbers.ofExcept fun _ _ => List.forall_mem_nil _
  apply measured.bind
  intro seconds _ _ _ machine _ numbered
  exact ⟨Nat.le_refl _, numbered.grown rfl (Nat.le_refl _), List.forall_mem_nil _⟩

theorem numbers_perform [Limits] (service : Service) {arguments : List Value}
    (below : Below bound (arguments.flatMap Value.identities)) :
    Numbers bound Value.identities (perform service arguments) := by
  have nothing : ∀ later, Numbers later Value.identities (Pure.pure .none) :=
    fun _ => Numbers.pure (List.forall_mem_nil _)
  cases service with
  | print => exact (numbers_printLine arguments).bind fun _ later _ _ => nothing later
  | range =>
      rcases arguments with _ | ⟨value, _ | ⟨second, rest⟩⟩
      · exact Numbers.fail _
      · rw [List.flatMap_singleton] at below
        exact Numbers.pure below
      · exact Numbers.fail _
  | readLine => exact numbers_readLine.bind fun _ _ _ _ => Numbers.pure (List.forall_mem_nil _)
  | clock => exact numbers_time.bind fun _ _ _ below => Numbers.pure below
  | sleep => exact (numbers_sleep _).bind fun _ later _ _ => nothing later

theorem numbers_printWith [Limits] (printer : Value) {arguments : List Value}
    (below : Below bound (arguments.flatMap Value.identities)) :
    Numbers bound (fun _ => []) (printWith printer arguments) := by
  cases printer with
  | service identity offered => exact (numbers_perform offered below).discard
  | _ => exact Numbers.fail _

theorem numbers_load (library : String) : Numbers bound (fun _ => []) (load library) := by
  unfold load
  split
  · apply numbers_newIdentity.bind
    intro clock later _ belowClock
    have first : Numbers later (fun _ => []) (assign "time_time" (.service clock .clock)) :=
      numbers_assign "time_time" belowClock
    apply first.bind
    intro _ last _ _
    exact numbers_newIdentity.bind fun sleep _ _ belowSleep => numbers_assign "time_sleep" belowSleep
  · exact Numbers.pure (List.forall_mem_nil _)

/-! ### Control -/

theorem numbers_operate [Limits] {left right : Value} (belowLeft : Below bound left.identities)
    (belowRight : Below bound right.identities) (operator : Operator) :
    Numbers bound Value.identities (operate operator left right) := by
  have choice : Below bound (if left.isTrue = true then right else left).identities ∧
      Below bound (if left.isTrue = true then left else right).identities := by
    by_cases holds : left.isTrue = true
    · rw [if_pos holds, if_pos holds]
      exact ⟨belowRight, belowLeft⟩
    · rw [if_neg holds, if_neg holds]
      exact ⟨belowLeft, belowRight⟩
  have distinguished : ∀ value : Value, value.isBare = true →
      Numbers bound Value.identities (distinguish value) := by
    intro value bare
    rcases Value.identities_of_isBare bare with ⟨payload, rfl⟩ | nothing
    · exact numbers_newIdentity.bind fun identity _ _ below => Numbers.pure below
    · rw [distinguish_of_identities nothing]
      apply Numbers.pure
      rw [nothing]
      exact List.forall_mem_nil _
  have applies : operator ≠ .and → operator ≠ .or → Numbers bound Value.identities
      (Run.ofExcept (operator.apply left right) >>= distinguish) := by
    intro notAnd notOr
    have bare := Operator.isBare_apply notAnd notOr left right
    cases applied : operator.apply left right with
    | ok value => exact distinguished value (bare value applied)
    | error cause => exact Numbers.fail cause
  cases operator with
  | and => exact Numbers.pure choice.1
  | or => exact Numbers.pure choice.2
  | _ => exact applies Operator.noConfusion Operator.noConfusion

theorem Numbers.round {entries : Entries Value} {body : Run Unit}
    (below : ∀ entry ∈ entries, Below bound entry.2.identities)
    (numbers : Numbers bound (fun _ => []) body) :
    Numbers bound (fun _ => []) (round entries body) := by
  intro machine given numbered
  obtain ⟨grows, numberedThen, ends⟩ := numbers.inScope below machine given numbered
  rw [Run.after, Run.outcome, run_round]
  refine ⟨grows, numberedThen, ?_⟩
  cases ended : (Run.inScope entries body).outcome machine with
  | ok _ => exact List.forall_mem_nil _
  | error signal =>
      rw [ended] at ends
      cases signal <;> exact ends

theorem Numbers.returning {body : Run Unit} (numbers : Numbers bound (fun _ => []) body) :
    Numbers bound Value.identities (returning body) := by
  intro machine given numbered
  obtain ⟨grows, numberedThen, ends⟩ := numbers machine given numbered
  rw [Run.after, Run.outcome, run_returning]
  refine ⟨grows, numberedThen, ?_⟩
  cases ended : body.outcome machine with
  | ok _ => exact List.forall_mem_nil _
  | error signal =>
      rw [ended] at ends
      cases signal <;> exact ends

theorem Numbers.countUp {body : Nat → Run Bool} (left start : Nat)
    (numbers : ∀ index, Numbers bound (fun _ => []) (body index)) :
    Numbers bound (fun _ => []) (countUp body start left) := by
  induction left generalizing start bound with
  | zero => exact Numbers.pure (List.forall_mem_nil _)
  | succ left ih =>
      apply (numbers start).bind
      intro goesOn later grows _
      cases goesOn with
      | true => exact ih (start + 1) fun index => (numbers index).mono grows
      | false => exact Numbers.pure (List.forall_mem_nil _)

theorem Numbers.whileTrue {condition : Run Value} {body : Run Bool} (left : Nat)
    (tests : Numbers bound Value.identities condition) (numbers : Numbers bound (fun _ => []) body) :
    Numbers bound (fun _ => []) (whileTrue condition body left) := by
  induction left generalizing bound with
  | zero => exact Numbers.throw (List.forall_mem_nil _)
  | succ left ih =>
      apply tests.bind
      intro found later grows _
      split
      · apply (numbers.mono grows).bind
        intro goesOn last growsOn _
        have growsAll := Nat.le_trans grows growsOn
        cases goesOn with
        | true => exact ih (tests.mono growsAll) (numbers.mono growsAll)
        | false => exact Numbers.pure (List.forall_mem_nil _)
      · exact Numbers.pure (List.forall_mem_nil _)

end

/-- What a call binds its parameters to. -/
theorem below_arguments {bound : Nat} (parameters : List String) {values : List Value}
    (below : Below bound (values.flatMap Value.identities)) :
    ∀ entry ∈ Entries.ofPairs (parameters.zip values), Below bound entry.2.identities := by
  apply Entries.forall_mem_ofPairs
  intro pair among
  exact below.of_mem (List.of_mem_zip among).2

/-- What a round of a counting loop starts with. -/
theorem below_counter {bound : Nat} (name : String) (index : Nat) :
    ∀ entry ∈ [(name, Value.int index)], Below bound entry.2.identities :=
  List.forall_mem_singleton.mpr (List.forall_mem_nil _)

/-! ### Expressions and statements -/

variable [Limits]

section

variable {rounds depth bound : Nat}
  (evaluates : ∀ {bound : Nat} (expression : Expr), Below bound expression.identities →
    Numbers bound Value.identities (evaluate rounds depth expression))
  (executes : ∀ {bound : Nat} (statement : Stmt), Below bound statement.identities →
    Numbers bound (fun _ => []) (execute rounds depth statement))

include evaluates in
private theorem numbers_evaluations {expressions : List Expr}
    (below : Below bound (Expr.identitiesOfAll expressions)) :
    Numbers bound (fun found => found.flatMap Value.identities)
      (expressions.mapM (evaluate rounds depth)) := by
  rw [Expr.identitiesOfAll_eq] at below
  exact Numbers.mapM expressions fun expression among => evaluates expression (below.of_mem among)

include evaluates in
private theorem numbers_fields {entries : List (String × Expr)}
    (below : Below bound (Expr.identitiesOfFields entries)) :
    Numbers bound (fun found => found.flatMap fun entry : String × Value => entry.2.identities)
      (entries.mapM fun entry => do
        let value ← evaluate rounds depth entry.2
        return (entry.1, value)) := by
  rw [Expr.identitiesOfFields_eq] at below
  apply Numbers.mapM
  intro entry among
  exact (evaluates entry.2 (below.of_mem (List.mem_map_of_mem among))).bind
    fun _ _ _ belowValue => Numbers.pure belowValue

include executes in
private theorem numbers_executions {block : Block} (below : Below bound (Stmt.identitiesOfAll block)) :
    Numbers bound (fun _ => []) (runBlock (execute rounds depth) block) := by
  rw [Stmt.identitiesOfAll_eq] at below
  exact Numbers.forM block fun statement among => executes statement (below.of_mem among)

include evaluates executes in
private theorem numbers_choice (otherwise : Block) (arms : List (Expr × Block))
    (below : Below bound (Work.choice otherwise arms).identities) :
    Numbers bound (fun _ => []) (chooseArm (evaluate rounds depth)
      (runBlock (execute rounds depth)) otherwise arms) := by
  obtain ⟨last, belowArms⟩ := below_append.mp below
  induction arms generalizing bound with
  | nil => exact numbers_executions executes last
  | cons arm rest ih =>
      obtain ⟨condition, body⟩ := arm
      obtain ⟨first, others⟩ := below_append.mp belowArms
      obtain ⟨test, inBody⟩ := below_append.mp first
      apply (evaluates condition test).bind
      intro found later grows _
      have lastThen := last.mono grows
      have othersThen := others.mono grows
      split
      · exact (numbers_executions executes inBody).mono grows
      · exact ih (below_append.mpr ⟨lastThen, othersThen⟩) lastThen othersThen

include evaluates executes in
/-- A piece of work, from the single expressions and statements at its depth. -/
private theorem numbers_work {work : Work} (below : Below bound work.identities) :
    Numbers bound (fun _ => []) (work.run rounds depth) := by
  cases work with
  | evaluation expression => exact (evaluates expression below).discard
  | evaluations expressions => exact (numbers_evaluations evaluates below).discard
  | execution statement => exact executes statement below
  | executions block => exact numbers_executions executes below
  | choice otherwise arms => exact numbers_choice evaluates executes otherwise arms below
  | counting name body start left =>
      exact Numbers.countUp left start fun index =>
        (numbers_executions executes below).round (below_counter name index)
  | looping condition body left =>
      obtain ⟨test, inBody⟩ := below_append.mp below
      exact Numbers.whileTrue left (evaluates condition test)
        ((numbers_executions executes inBody).round (List.forall_mem_nil _))

include executes in
private theorem numbers_callNamed {name : String} {callee : Value} {arguments : List Value}
    (belowCallee : Below bound callee.identities)
    (below : Below bound (arguments.flatMap Value.identities)) :
    Numbers bound Value.identities (callNamed (execute rounds depth) name callee arguments) := by
  cases callee with
  | function identity parameters body =>
      have inBody := numbers_executions executes (below_cons.mp belowCallee).2
      exact inBody.returning.inScope (below_arguments parameters below)
  | service identity offered => exact numbers_perform offered below
  | _ => exact Numbers.fail _

include evaluates executes in
private theorem numbers_evaluate_succ {expression : Expr} (below : Below bound expression.identities) :
    Numbers bound Value.identities (evaluate rounds (depth + 1) expression) := by
  cases expression with
  | literal value =>
      apply Numbers.pure
      rw [Value.identities_ofLiteral]
      exact below
  | «variable» name => exact numbers_lookup name
  | binary left operator right =>
      obtain ⟨inLeft, inRight⟩ := below_append.mp below
      apply (evaluates left inLeft).bind
      intro leftValue later grows belowLeft
      apply (evaluates right (inRight.mono grows)).bind
      intro rightValue last growsOn belowRight
      exact numbers_operate (belowLeft.mono growsOn) belowRight operator
  | table entries =>
      apply (numbers_fields evaluates below).bind
      intro fields later _ belowFields
      apply numbers_newIdentity.bind
      intro identity last growsOn belowIdentity
      apply Numbers.pure
      rw [Value.identities, Value.identitiesOfFields_eq]
      exact below_cons.mpr ⟨belowIdentity identity List.mem_cons_self, belowFields.mono growsOn⟩
  | call callee arguments =>
      apply (numbers_lookup callee).bind
      intro value later grows belowValue
      apply (numbers_evaluations evaluates (below.mono grows)).bind
      intro values last growsOn belowValues
      exact numbers_callNamed executes (belowValue.mono growsOn) belowValues
  | misplaced sort => exact Numbers.fail _
  | lacking sort part => exact Numbers.fail _

include evaluates executes in
private theorem numbers_execute_succ {statement : Stmt} (below : Below bound statement.identities) :
    Numbers bound (fun _ => []) (execute rounds (depth + 1) statement) := by
  have nothing : Below bound [] := List.forall_mem_nil _
  cases statement with
  | print arguments =>
      apply (numbers_evaluations evaluates below).bind
      intro values later grows belowValues
      apply (numbers_lookupGlobal "printline").bind
      intro printer last growsOn _
      exact numbers_printWith printer (belowValues.mono growsOn)
  | assign name value =>
      exact (evaluates value below).bind fun _ _ _ belowValue => numbers_assign name belowValue
  | branch condition body arms otherwise =>
      obtain ⟨front, last⟩ := below_append.mp below
      obtain ⟨first, others⟩ := below_append.mp front
      rw [← Stmt.identitiesOfAll_getD] at last
      exact numbers_choice evaluates executes _ _
        (below_append.mpr ⟨last, below_append.mpr ⟨first, others⟩⟩)
  | count name limit body =>
      obtain ⟨inLimit, inBody⟩ := below_append.mp below
      apply (evaluates limit inLimit).bind
      intro value later grows _
      cases value.integer? with
      | none => exact Numbers.fail _
      | some count =>
          have counting : Below later (Work.counting name body 0 count.toNat).identities :=
            inBody.mono grows
          exact numbers_work evaluates executes counting
  | loop condition body =>
      have looping : Below bound (Work.looping condition body rounds).identities := below
      exact numbers_work evaluates executes looping
  | leave => exact Numbers.throw nothing
  | next => exact Numbers.throw nothing
  | define name parameters body =>
      apply numbers_newIdentity.bind
      intro identity later grows belowIdentity
      apply numbers_assign
      exact below_cons.mpr ⟨belowIdentity identity List.mem_cons_self, below.mono grows⟩
  | result value =>
      cases value with
      | none => exact Numbers.throw nothing
      | some value =>
          exact (evaluates value below).bind fun _ _ _ belowValue => Numbers.throw belowValue
  | load library => exact numbers_load library
  | evaluate value => exact (evaluates value below).discard

end

private theorem numbers_evaluate_and_execute (rounds depth : Nat) :
    (∀ {bound : Nat} (expression : Expr), Below bound expression.identities →
      Numbers bound Value.identities (evaluate rounds depth expression)) ∧
    ∀ {bound : Nat} (statement : Stmt), Below bound statement.identities →
      Numbers bound (fun _ => []) (execute rounds depth statement) := by
  induction depth with
  | zero => exact ⟨fun _ _ => Numbers.fail _, fun _ _ => Numbers.fail _⟩
  | succ depth ih =>
      exact ⟨fun _ below => numbers_evaluate_succ ih.1 ih.2 below,
        fun _ below => numbers_execute_succ ih.1 ih.2 below⟩

section

variable {rounds depth bound : Nat}

theorem numbers_evaluate {expression : Expr} (below : Below bound expression.identities) :
    Numbers bound Value.identities (evaluate rounds depth expression) :=
  (numbers_evaluate_and_execute rounds depth).1 expression below

theorem numbers_execute {statement : Stmt} (below : Below bound statement.identities) :
    Numbers bound (fun _ => []) (execute rounds depth statement) :=
  (numbers_evaluate_and_execute rounds depth).2 statement below

/-- A round of a loop. -/
theorem numbers_round {entries : Entries Value} {body : Block}
    (belowEntries : ∀ entry ∈ entries, Below bound entry.2.identities)
    (below : Below bound (Stmt.identitiesOfAll body)) :
    Numbers bound (fun _ => []) (round entries (runBlock (execute rounds depth) body)) :=
  (numbers_executions (fun _ => numbers_execute) below).round belowEntries

end

omit [Limits] in
/-- What holds of the machine and of the value when a run within the given identities has ended. -/
theorem Numbers.ended {α : Type} {made : α → List Nat} {run : Run α} {machine left : Machine}
    {ended : Except Stop α} (numbers : Numbers machine.nextIdentity made run)
    (numbered : machine.IsNumbered) (ran : run.run.run machine = (ended, left)) :
    machine.nextIdentity ≤ left.nextIdentity ∧ left.IsNumbered ∧
      Ends (fun found => Below left.nextIdentity (made found))
        (fun stop => Below left.nextIdentity stop.identities) ended := by
  have ends := numbers machine (Nat.le_refl _) numbered
  rwa [after, outcome, ran] at ends

end Run

/-! ### Moments -/

/-- All that the machine holds and all that is in the tree has an identity that was given before. -/
structure Moment.IsNumbered (moment : Moment) : Prop where
  machine : moment.machine.IsNumbered
  work : Below moment.machine.nextIdentity moment.work.identities

namespace Moment.IsNumbered

variable [Limits] {rounds : Nat} {moment next : Moment}

open Run in
/-- What comes directly out of a numbered moment is numbered. -/
theorem starts (numbered : moment.IsNumbered) (starts : Starts rounds moment next) :
    next.IsNumbered := by
  obtain ⟨held, below⟩ := numbered
  cases starts with
  | left => exact ⟨held, (below_append.mp below).1⟩
  | right ran =>
      obtain ⟨inLeft, inRight⟩ := below_append.mp below
      obtain ⟨grows, heldThen, _⟩ := (numbers_evaluate inLeft).ended held ran
      exact ⟨heldThen, inRight.mono grows⟩
  | fields =>
      refine ⟨held, ?_⟩
      rw [Work.identities, Expr.identities, Expr.identitiesOfFields_eq] at below
      rw [Work.identities, Expr.identitiesOfAll_eq]
      exact below
  | arguments _ => exact ⟨held, below⟩
  | called found ran =>
      have belowCallee := held.held.find? found
      obtain ⟨grows, heldThen, belowValues⟩ :=
        (numbers_evaluations (fun _ => numbers_evaluate) below).ended held ran
      exact ⟨heldThen.enter (below_arguments _ belowValues),
        (below_cons.mp belowCallee).2.mono grows⟩
  | firstExpression => exact ⟨held, (below_append.mp below).1⟩
  | otherExpressions ran =>
      obtain ⟨first, others⟩ := below_append.mp below
      obtain ⟨grows, heldThen, _⟩ := (numbers_evaluate first).ended held ran
      exact ⟨heldThen, others.mono grows⟩
  | printed | assigned | loop | result | evaluated => exact ⟨held, below⟩
  | branch =>
      obtain ⟨front, last⟩ := below_append.mp below
      rw [← Stmt.identitiesOfAll_getD] at last
      exact ⟨held, below_append.mpr ⟨last, front⟩⟩
  | limit => exact ⟨held, (below_append.mp below).1⟩
  | count ran _ =>
      obtain ⟨inLimit, inBody⟩ := below_append.mp below
      obtain ⟨grows, heldThen, _⟩ := (numbers_evaluate inLimit).ended held ran
      exact ⟨heldThen, inBody.mono grows⟩
  | firstStatement => exact ⟨held, (below_append.mp below).1⟩
  | otherStatements ran =>
      obtain ⟨first, others⟩ := below_append.mp below
      obtain ⟨grows, heldThen, _⟩ := (numbers_execute first).ended held ran
      exact ⟨heldThen, others.mono grows⟩
  | test =>
      obtain ⟨first, _⟩ := below_append.mp (below_append.mp below).2
      exact ⟨held, (below_append.mp first).1⟩
  | taken ran _ =>
      obtain ⟨first, _⟩ := below_append.mp (below_append.mp below).2
      obtain ⟨test, inBody⟩ := below_append.mp first
      obtain ⟨grows, heldThen, _⟩ := (numbers_evaluate test).ended held ran
      exact ⟨heldThen, inBody.mono grows⟩
  | passed ran _ =>
      obtain ⟨last, arms⟩ := below_append.mp below
      obtain ⟨first, others⟩ := below_append.mp arms
      obtain ⟨grows, heldThen, _⟩ := (numbers_evaluate (below_append.mp first).1).ended held ran
      exact ⟨heldThen, below_append.mpr ⟨last.mono grows, others.mono grows⟩⟩
  | otherwise => exact ⟨held, (below_append.mp below).1⟩
  | countRound =>
      exact ⟨held.enter (below_counter _ _), below⟩
  | countOn ran =>
      obtain ⟨grows, heldThen, _⟩ := (numbers_round (below_counter _ _) below).ended held ran
      exact ⟨heldThen, below.mono grows⟩
  | loopTest => exact ⟨held, (below_append.mp below).1⟩
  | loopRound ran _ =>
      obtain ⟨test, inBody⟩ := below_append.mp below
      obtain ⟨grows, heldThen, _⟩ := (numbers_evaluate test).ended held ran
      exact ⟨heldThen.enter (List.forall_mem_nil _), inBody.mono grows⟩
  | loopOn ran _ ranRound =>
      obtain ⟨test, inBody⟩ := below_append.mp below
      obtain ⟨grows, heldThen, _⟩ := (numbers_evaluate test).ended held ran
      obtain ⟨growsOn, heldLast, _⟩ :=
        (numbers_round (List.forall_mem_nil _) (inBody.mono grows)).ended heldThen ranRound
      exact ⟨heldLast, below.mono (Nat.le_trans grows growsOn)⟩

theorem reaches (numbered : moment.IsNumbered) (reaches : Reaches rounds moment next) :
    next.IsNumbered := by
  induction reaches with
  | refl => exact numbered
  | tail _ starts ih => exact ih.starts starts

end Moment.IsNumbered

end IndentScript
