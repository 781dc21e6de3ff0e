import IndentScript.Proofs.Frames
import IndentScript.Proofs.HeldValues
import IndentScript.Proofs.SourceNames

/-!
What a run looks up. The names of a tree are those of the variables that it reads and of the
functions that it calls, with those in the bodies of the functions that it defines; the names of a
value are those in its body, if it is a function.

Two runs are compared that start on machines which agree on a set of names: each of these names has
the same value in both, and the names of that value are in the set again. The rules say piece by
piece that the runs end alike and leave such machines behind, and an induction on the depth says it
of every expression and statement whose names are in the set. What the two machines hold under
other names is of no account.

The one thing that is not looked up through the chain of scopes is what prints: it is looked up in
the global scope. A run on a chain of one scope can change it, unless it spares the name; functions
and loops run on chains of at least two scopes.
-/

namespace IndentScript

/-! ### Names of trees and values -/

mutual

def Expr.names : Expr → List String
  | .variable name => [name]
  | .binary left _ right => left.names ++ right.names
  | .table entries => Expr.namesOfFields entries
  | .call callee arguments => callee :: Expr.namesOfAll arguments
  | _ => []

def Expr.namesOfFields : List (String × Expr) → List String
  | [] => []
  | (_, expression) :: rest => expression.names ++ Expr.namesOfFields rest

def Expr.namesOfAll : List Expr → List String
  | [] => []
  | expression :: rest => expression.names ++ Expr.namesOfAll rest

end

mutual

/-- The names that a statement looks up, now or in a function that it defines. -/
def Stmt.names : Stmt → List String
  | .print arguments => Expr.namesOfAll arguments
  | .assign _ value => value.names
  | .branch condition body arms otherwise =>
    condition.names ++ Stmt.namesOfAll body ++ Stmt.namesOfArms arms
      ++ Stmt.namesOfOtherwise otherwise
  | .count _ limit body => limit.names ++ Stmt.namesOfAll body
  | .loop condition body => condition.names ++ Stmt.namesOfAll body
  | .define _ _ body => Stmt.namesOfAll body
  | .result (some value) => value.names
  | .evaluate value => value.names
  | _ => []

def Stmt.namesOfAll : List Stmt → List String
  | [] => []
  | statement :: rest => statement.names ++ Stmt.namesOfAll rest

def Stmt.namesOfArms : List (Expr × List Stmt) → List String
  | [] => []
  | (condition, body) :: rest =>
    condition.names ++ Stmt.namesOfAll body ++ Stmt.namesOfArms rest

def Stmt.namesOfOtherwise : Option (List Stmt) → List String
  | none => []
  | some body => Stmt.namesOfAll body

end

/-- The names that a call of the value looks up. -/
def Value.names : Value → List String
  | .function _ _ body => Stmt.namesOfAll body
  | _ => []

def Stop.names : Stop → List String
  | .result value => value.names
  | _ => []

theorem Expr.namesOfAll_eq (expressions : List Expr) :
    namesOfAll expressions = expressions.flatMap names := by
  induction expressions with
  | nil => rfl
  | cons expression rest ih => rw [namesOfAll, ih, List.flatMap_cons]

theorem Expr.namesOfFields_eq (entries : List (String × Expr)) :
    namesOfFields entries = entries.flatMap fun entry => entry.2.names := by
  induction entries with
  | nil => rfl
  | cons entry rest ih =>
      obtain ⟨name, expression⟩ := entry
      rw [namesOfFields, ih, List.flatMap_cons]

theorem Stmt.namesOfAll_eq (block : Block) : namesOfAll block = block.flatMap names := by
  induction block with
  | nil => rfl
  | cons statement rest ih => rw [namesOfAll, ih, List.flatMap_cons]

theorem Stmt.namesOfArms_eq (arms : List (Expr × Block)) :
    namesOfArms arms = arms.flatMap fun arm => arm.1.names ++ namesOfAll arm.2 := by
  induction arms with
  | nil => rfl
  | cons arm rest ih =>
      obtain ⟨condition, body⟩ := arm
      rw [namesOfArms, ih, List.flatMap_cons]

theorem Value.names_of_isPlain {value : Value} (plain : value.isPlain = true) :
    value.names = [] := by
  cases value with
  | function => cases plain
  | _ => rfl

theorem Value.names_ofLiteral (literal : Literal) : (Value.ofLiteral literal).names = [] := by
  cases literal <;> rfl

abbrev Covers (names : String → Prop) (listed : List String) : Prop :=
  ∀ name ∈ listed, names name

theorem Covers.of_isPlain (names : String → Prop) {value : Value} (plain : value.isPlain = true) :
    Covers names value.names := by
  rw [Value.names_of_isPlain plain]
  exact List.forall_mem_nil _

/-! ### Scopes -/

namespace Run

theorem find?_cons (name : String) (scope : Entries Value) (outer : Scopes) :
    find? name (scope :: outer) = (Entries.get? name scope).or (find? name outer) := by
  unfold find?
  rw [List.findSome?_cons]
  cases Entries.get? name scope with
  | none => rfl
  | some value => rfl

theorem find?_assigned {scopes : Scopes} (inside : scopes ≠ []) (name other : String)
    (value : Value) :
    find? other (assigned name value scopes) =
      if other = name then some value else find? other scopes := by
  cases scopes with
  | nil => exact absurd rfl inside
  | cons scope outer =>
      rw [assigned, find?_cons, find?_cons]
      by_cases same : other = name
      · rw [if_pos same, same, Entries.get?_set_self]
        rfl
      · rw [if_neg same, Entries.get?_set_of_ne same]

/-- Setting a name changes no other global variable, and none at all inside another scope. -/
theorem get?_globals_assigned {scopes : Scopes} {name other : String}
    (spared : 1 < scopes.length ∨ other ≠ name) (value : Value) :
    Entries.get? other ((assigned name value scopes).getLast?.getD []) =
      Entries.get? other (scopes.getLast?.getD []) := by
  cases scopes with
  | nil => rfl
  | cons scope outer =>
      cases outer with
      | nil =>
          rcases spared with long | different
          · exact absurd long (Nat.lt_irrefl 1)
          · exact Entries.get?_set_of_ne different value scope
      | cons second outer => rfl

end Run

/-- Two machines that are the same but for their scopes. These give the same values to the names of
the set, whose own names are in the set, and there are more than the given number of them. -/
structure AgreeOn (names : String → Prop) (height : Nat) (one other : Machine) : Prop where
  console : one.console = other.console
  nextIdentity : one.nextIdentity = other.nextIdentity
  visible : ∀ name, names name → Run.find? name one.scopes = Run.find? name other.scopes
  closed : ∀ name value, names name → Run.find? name one.scopes = some value →
    Covers names value.names
  printer : Entries.get? "printline" one.globals = Entries.get? "printline" other.globals
  high : height < one.scopes.length
  otherHigh : height < other.scopes.length

section

variable {names : String → Prop} {height : Nat} {one other : Machine}

theorem AgreeOn.assigned (agree : AgreeOn names height one other) {name : String}
    (spared : 1 ≤ height ∨ "printline" ≠ name) {value : Value}
    (covered : Covers names value.names) :
    AgreeOn names height { one with scopes := Run.assigned name value one.scopes }
      { other with scopes := Run.assigned name value other.scopes } := by
  have inside := List.ne_nil_of_length_pos (Nat.zero_lt_of_lt agree.high)
  have otherInside := List.ne_nil_of_length_pos (Nat.zero_lt_of_lt agree.otherHigh)
  have sameLength : ∀ scopes : Scopes,
      (Run.assigned name value scopes).length = scopes.length := by
    intro scopes
    cases scopes with
    | nil => rfl
    | cons scope outer => rfl
  have spares : ∀ scopes : Scopes, height < scopes.length →
      1 < scopes.length ∨ "printline" ≠ name := by
    intro scopes high
    rcases spared with deep | different
    · exact .inl (by omega)
    · exact .inr different
  refine ⟨agree.console, agree.nextIdentity, ?_, ?_, ?_, ?_, ?_⟩
  · intro looked isName
    rw [Run.find?_assigned inside, Run.find?_assigned otherInside, agree.visible looked isName]
  · intro looked found isName finds
    rw [Run.find?_assigned inside] at finds
    by_cases same : looked = name
    · rw [if_pos same] at finds
      cases finds
      exact covered
    · rw [if_neg same] at finds
      exact agree.closed looked found isName finds
  · exact (Run.get?_globals_assigned (spares _ agree.high) value).trans
      (agree.printer.trans (Run.get?_globals_assigned (spares _ agree.otherHigh) value).symm)
  · rw [sameLength]
    exact agree.high
  · rw [sameLength]
    exact agree.otherHigh

theorem Machine.globals_push (machine : Machine) (inside : machine.scopes ≠ [])
    (entries : Entries Value) :
    { machine with scopes := entries :: machine.scopes }.globals = machine.globals := by
  obtain ⟨scopes, console, nextIdentity⟩ := machine
  cases scopes with
  | nil => exact absurd rfl inside
  | cons scope outer => rfl

/-- A scope on top of both chains. -/
theorem AgreeOn.push (agree : AgreeOn names height one other) {entries : Entries Value}
    (covered : ∀ entry ∈ entries, Covers names entry.2.names) :
    AgreeOn names 1 { one with scopes := entries :: one.scopes }
      { other with scopes := entries :: other.scopes } := by
  have high := Nat.zero_lt_of_lt agree.high
  have otherHigh := Nat.zero_lt_of_lt agree.otherHigh
  refine ⟨agree.console, agree.nextIdentity, ?_, ?_, ?_, ?_, ?_⟩
  · intro name isName
    rw [Run.find?_cons, Run.find?_cons, agree.visible name isName]
  · intro name value isName finds
    rw [Run.find?_cons] at finds
    cases top : Entries.get? name entries with
    | none =>
        rw [top] at finds
        exact agree.closed name value isName finds
    | some found =>
        rw [top] at finds
        cases finds
        exact covered _ (Entries.mem_of_get? top)
  · rw [Machine.globals_push one (List.ne_nil_of_length_pos high),
      Machine.globals_push other (List.ne_nil_of_length_pos otherHigh)]
    exact agree.printer
  · exact Nat.succ_lt_succ high
  · exact Nat.succ_lt_succ otherHigh

end

namespace Run

/-! ### Two runs -/

/-- On machines that agree on the names, the run ends alike and leaves such machines behind. It ends
with such a value, or with a stop whose names are in the set. -/
def Heeds {α : Type} (names : String → Prop) (height : Nat) (value : α → Prop) (run : Run α) :
    Prop :=
  ∀ one other, AgreeOn names height one other →
    run.outcome one = run.outcome other ∧
      AgreeOn names height (run.after one) (run.after other) ∧
      Ends value (fun signal => Covers names signal.names) (run.outcome one)

abbrev HeedsAny {α : Type} (names : String → Prop) (height : Nat) (run : Run α) : Prop :=
  Heeds names height (fun _ => True) run

section

variable {α β : Type} {names : String → Prop} {height : Nat} {value : α → Prop} {result : β → Prop}

theorem Heeds.pure {found : α} (isValue : value found) :
    Heeds names height value (Pure.pure found) :=
  fun _ _ agree => ⟨rfl, agree, isValue⟩

theorem Heeds.throw {signal : Stop} (covered : Covers names signal.names) :
    Heeds names height value (throw signal : Run α) :=
  fun _ _ agree => ⟨rfl, agree, covered⟩

theorem Heeds.fail (cause : Fault) : Heeds names height value (fail cause : Run α) :=
  Heeds.throw (List.forall_mem_nil _)

theorem Heeds.ofExcept {computed : Except Fault α}
    (values : ∀ found, computed = .ok found → value found) :
    Heeds names height value (ofExcept computed) := by
  cases computed with
  | ok found => exact Heeds.pure (values found rfl)
  | error cause => exact Heeds.fail cause

theorem Heeds.bind {first : Run α} {next : α → Run β} (heeds : Heeds names height value first)
    (heedsNext : ∀ found, value found → Heeds names height result (next found)) :
    Heeds names height result (first >>= next) := by
  intro one other agree
  obtain ⟨same, left, ends⟩ := heeds one other agree
  unfold outcome at same ends ⊢
  unfold after at left ⊢
  cases ran : first.run.run one with
  | mk ended middle =>
      cases otherRan : first.run.run other with
      | mk otherEnded otherMiddle =>
          rw [ran] at ends
          rw [ran, otherRan] at same left
          obtain rfl : ended = otherEnded := same
          cases ended with
          | ok found =>
              rw [run_bind_ok ran, run_bind_ok otherRan]
              exact heedsNext found ends middle otherMiddle left
          | error signal =>
              rw [run_bind_error ran, run_bind_error otherRan]
              exact ⟨rfl, left, ends⟩

theorem Heeds.discard {run : Run α} (heeds : Heeds names height value run) :
    HeedsAny names height (discard run) :=
  heeds.bind fun _ _ => Heeds.pure trivial

/-- A run that deals with the console only. -/
theorem Heeds.of_console {run : Run α} (ending : Console → Except Stop α)
    (change : Console → Console)
    (runs : ∀ machine, run.run.run machine =
      (ending machine.console, { machine with console := change machine.console }))
    (ends : ∀ console, Ends value (fun signal => Covers names signal.names) (ending console)) :
    Heeds names height value run := by
  intro one other agree
  unfold outcome after
  rw [runs one, runs other, agree.console]
  exact ⟨rfl, ⟨rfl, agree.nextIdentity, agree.visible, agree.closed, agree.printer, agree.high,
    agree.otherHigh⟩, ends _⟩

/-- A run whose end is translated from that of another, on the same machine. -/
theorem Heeds.translate {run : Run α} {whole : Run β}
    (translation : Except Stop α → Except Stop β)
    (runs : ∀ machine, whole.run.run machine =
      (translation (run.outcome machine), run.after machine))
    (translated : ∀ ended, Ends value (fun signal => Covers names signal.names) ended →
      Ends result (fun signal => Covers names signal.names) (translation ended))
    (heeds : Heeds names height value run) : Heeds names height result whole := by
  intro one other agree
  obtain ⟨same, left, ends⟩ := heeds one other agree
  have wholeRuns : ∀ machine, whole.outcome machine = translation (run.outcome machine) ∧
      whole.after machine = run.after machine := by
    intro machine
    unfold outcome after
    rw [runs machine]
    exact ⟨rfl, rfl⟩
  rw [(wholeRuns one).1, (wholeRuns other).1, (wholeRuns one).2, (wholeRuns other).2, ← same]
  exact ⟨rfl, left, translated _ ends⟩

theorem Heeds.mapM {step : α → Run β} (items : List α)
    (heeds : ∀ item ∈ items, Heeds names height result (step item)) :
    Heeds names height (fun found => ∀ one ∈ found, result one) (items.mapM step) := by
  induction items with
  | nil => exact Heeds.pure (List.forall_mem_nil _)
  | cons item rest ih =>
      obtain ⟨here, others⟩ := List.forall_mem_cons.mp heeds
      rw [List.mapM_cons]
      apply here.bind
      intro first isFirst
      apply (ih others).bind
      intro found areFound
      exact Heeds.pure (List.forall_mem_cons.mpr ⟨isFirst, areFound⟩)

theorem Heeds.forM {step : α → Run Unit} (items : List α)
    (heeds : ∀ item ∈ items, HeedsAny names height (step item)) :
    HeedsAny names height (items.forM step) := by
  induction items with
  | nil => exact Heeds.pure trivial
  | cons item rest ih =>
      obtain ⟨first, others⟩ := List.forall_mem_cons.mp heeds
      exact first.bind fun _ _ => ih others

/-! ### Variables -/

/-- A look at a value that is the same in both machines. -/
theorem Heeds.look {values : Value → Prop} (look : Machine → Option Value) (name : String)
    (same : ∀ one other, AgreeOn names height one other → look one = look other ∧
      ∀ found, look one = some found → values found) :
    Heeds names height values (do
      let machine ← get
      match look machine with
      | some value => return value
      | none => Run.fail (.undefinedVariable name)) := by
  intro one other agree
  obtain ⟨looksSame, isValue⟩ := same one other agree
  unfold outcome after
  simp only [run_get_bind]
  rw [← looksSame]
  cases looked : look one with
  | some value => exact ⟨rfl, agree, isValue value looked⟩
  | none => exact ⟨rfl, agree, List.forall_mem_nil _⟩

theorem heeds_lookup {name : String} (isName : names name) :
    Heeds names height (fun found => Covers names found.names) (lookup name) := by
  apply Heeds.look (fun machine => find? name machine.scopes) name
  intro one other agree
  exact ⟨agree.visible name isName, fun found => agree.closed name found isName⟩

theorem heeds_printer : HeedsAny names height (lookupGlobal "printline") := by
  apply Heeds.look (fun machine => Entries.get? "printline" machine.globals) "printline"
  intro one other agree
  exact ⟨agree.printer, fun _ _ => trivial⟩

theorem heeds_assign {name : String} (spared : 1 ≤ height ∨ "printline" ≠ name) {found : Value}
    (covered : Covers names found.names) : HeedsAny names height (assign name found) :=
  fun _ _ agree => ⟨rfl, agree.assigned spared covered, trivial⟩

theorem heeds_newIdentity : HeedsAny names height newIdentity := by
  intro one other agree
  refine ⟨congrArg Except.ok agree.nextIdentity, ⟨agree.console, ?_, agree.visible, agree.closed,
    agree.printer, agree.high, agree.otherHigh⟩, trivial⟩
  exact congrArg (· + 1) agree.nextIdentity

/-- What runs in a scope of its own may set any name, as it cannot reach the global scope. -/
theorem Heeds.inScope {body : Run α} {entries : Entries Value}
    (covered : ∀ entry ∈ entries, Covers names entry.2.names)
    (keeps : ∀ scopes, Preserves (SameOuter scopes) body) (heeds : Heeds names 1 value body) :
    Heeds names height value (inScope entries body) := by
  intro one other agree
  obtain ⟨same, left, ends⟩ := heeds _ _ (agree.push covered)
  -- The chains below the new scope are not just again alike but the ones from before.
  have unchanged := (unchanging_inScope entries keeps).scopes_after
  refine ⟨same, ⟨left.console, left.nextIdentity, ?_, ?_, ?_, ?_, ?_⟩, ends⟩
  · rw [unchanged one, unchanged other]
    exact agree.visible
  · rw [unchanged one]
    exact agree.closed
  · unfold Machine.globals
    rw [unchanged one, unchanged other]
    exact agree.printer
  · rw [unchanged one]
    exact agree.high
  · rw [unchanged other]
    exact agree.otherHigh

/-! ### Services -/

theorem heeds_write (text : Content) : HeedsAny names height (write text) :=
  Heeds.of_console (fun _ => .ok ()) (fun console => console.write text) (fun _ => rfl)
    fun _ => trivial

def firstLine : List (Option String) → Except Stop String
  | [] => .error (.fault .endOfInput)
  | some text :: _ => .ok text
  | none :: _ => .error .interrupt

theorem heeds_readLine : HeedsAny names height readLine := by
  refine Heeds.of_console (fun console => firstLine console.input)
    (fun console => { console with input := console.input.tail }) ?_ ?_
  · intro machine
    obtain ⟨scopes, ⟨input, output, clock⟩, nextIdentity⟩ := machine
    cases input with
    | nil => rfl
    | cons line rest =>
        cases line with
        | some text => rfl
        | none => rfl
  · intro console
    rcases console.input with _ | ⟨_ | text, rest⟩
    · exact List.forall_mem_nil _
    · exact List.forall_mem_nil _
    · exact trivial

theorem heeds_printLine [Limits] (values : List Value) : HeedsAny names height (printLine values) := by
  have written : HeedsAny names height (values.forM printValue) := by
    apply Heeds.forM
    intro value _
    have shown : HeedsAny names height (ofExcept value.shown) :=
      Heeds.ofExcept fun _ _ => trivial
    exact shown.bind fun text _ => heeds_write _
  exact written.bind fun _ _ => heeds_write _

/-- A service gives back an argument or a plain value. -/
theorem heeds_perform [Limits] (service : Service) {arguments : List Value}
    (given : ∀ argument ∈ arguments, Covers names argument.names) :
    Heeds names height (fun found => Covers names found.names) (perform service arguments) := by
  have plain : ∀ found : Value, found.isPlain = true → Covers names found.names :=
    fun found => Covers.of_isPlain names
  cases service with
  | print => exact (heeds_printLine arguments).bind fun _ _ => Heeds.pure (plain _ rfl)
  | range =>
      rcases arguments with _ | ⟨value, _ | ⟨second, rest⟩⟩
      · exact Heeds.fail _
      · exact Heeds.pure (given value List.mem_cons_self)
      · exact Heeds.fail _
  | readLine => exact heeds_readLine.bind fun text _ => Heeds.pure (plain _ rfl)
  | clock =>
      have looked : HeedsAny names height time :=
        Heeds.of_console (fun console => .ok console.look.1) (fun console => console.look.2)
          (fun _ => rfl) fun _ => trivial
      exact looked.bind fun now _ => Heeds.pure (plain _ rfl)
  | sleep =>
      have measured : ∀ length, HeedsAny names height (ofExcept (sleepLength length)) :=
        fun length => Heeds.ofExcept fun _ _ => trivial
      have slept : ∀ seconds, HeedsAny names height (modify fun machine =>
          { machine with console := machine.console.wait seconds }) := fun seconds =>
        Heeds.of_console (fun _ => .ok ()) (fun console => console.wait seconds) (fun _ => rfl)
          fun _ => trivial
      exact ((measured _).bind fun seconds _ => slept seconds).bind fun _ _ =>
        Heeds.pure (plain _ rfl)

theorem heeds_printWith [Limits] (printer : Value) {arguments : List Value}
    (given : ∀ argument ∈ arguments, Covers names argument.names) :
    HeedsAny names height (printWith printer arguments) := by
  cases printer with
  | service identity offered => exact (heeds_perform offered given).discard
  | _ => exact Heeds.fail _

theorem heeds_load (library : String) : HeedsAny names height (load library) := by
  have plain : ∀ found : Value, found.isPlain = true → Covers names found.names :=
    fun found => Covers.of_isPlain names
  unfold load
  split
  · apply heeds_newIdentity.bind
    intro clock _
    apply (heeds_assign (.inr (by decide)) (plain _ rfl)).bind
    intro _ _
    apply heeds_newIdentity.bind
    intro sleep _
    exact heeds_assign (.inr (by decide)) (plain _ rfl)
  · exact Heeds.pure trivial

/-! ### Control -/

theorem heeds_operate [Limits] (operator : Operator) {left right : Value}
    (leftCovered : Covers names left.names) (rightCovered : Covers names right.names) :
    Heeds names height (fun found => Covers names found.names) (operate operator left right) := by
  have distinguished : ∀ found : Value, Covers names found.names →
      Heeds names height (fun found => Covers names found.names) (distinguish found) := by
    intro found covered
    unfold distinguish
    split
    · exact heeds_newIdentity.bind fun identity _ => Heeds.pure (Covers.of_isPlain names rfl)
    · exact Heeds.pure covered
  have applied : Heeds names height (fun found => Covers names found.names)
      (ofExcept (operator.apply left right)) := by
    apply Heeds.ofExcept
    intro found applies
    rcases Operator.apply_eq_ok applies with rfl | rfl | plain
    · exact leftCovered
    · exact rightCovered
    · exact Covers.of_isPlain names plain
  apply applied.bind
  intro found covered
  split
  · exact Heeds.pure covered
  · exact Heeds.pure covered
  · exact distinguished found covered

theorem Heeds.chooseArm {values : Value → Prop} {test : Expr → Run Value} {run : Block → Run Unit}
    {otherwise : Block} (arms : List (Expr × Block))
    (tests : ∀ arm ∈ arms, Heeds names height values (test arm.1))
    (runs : ∀ arm ∈ arms, HeedsAny names height (run arm.2))
    (last : HeedsAny names height (run otherwise)) :
    HeedsAny names height (chooseArm test run otherwise arms) := by
  induction arms with
  | nil => exact last
  | cons arm rest ih =>
      obtain ⟨firstTest, otherTests⟩ := List.forall_mem_cons.mp tests
      obtain ⟨first, others⟩ := List.forall_mem_cons.mp runs
      apply firstTest.bind
      intro value _
      split
      · exact first
      · exact ih otherTests others

theorem Heeds.round {entries : Entries Value} {body : Run Unit}
    (heeds : HeedsAny names height (Run.inScope entries body)) :
    HeedsAny names height (round entries body) := by
  apply Heeds.translate loopEnd (run_round entries body) _ heeds
  intro ended ends
  cases ended with
  | ok _ => exact trivial
  | error signal =>
      cases signal with
      | leave | next => exact trivial
      | _ => exact ends

theorem Heeds.returning {body : Run Unit} (heeds : HeedsAny names height body) :
    Heeds names height (fun found => Covers names found.names) (returning body) := by
  apply Heeds.translate callEnd (run_returning body) _ heeds
  intro ended ends
  cases ended with
  | ok _ => exact Covers.of_isPlain names rfl
  | error signal => cases signal <;> exact ends

theorem Heeds.countUp {body : Nat → Run Bool}
    (heeds : ∀ index, HeedsAny names height (body index)) (left start : Nat) :
    HeedsAny names height (countUp body start left) := by
  induction left generalizing start with
  | zero => exact Heeds.pure trivial
  | succ left ih =>
      apply (heeds start).bind
      intro goesOn _
      split
      · exact ih (start + 1)
      · exact Heeds.pure trivial

theorem Heeds.whileTrue {values : Value → Prop} {condition : Run Value} {body : Run Bool}
    (tests : Heeds names height values condition) (heeds : HeedsAny names height body)
    (left : Nat) : HeedsAny names height (whileTrue condition body left) := by
  induction left with
  | zero => exact Heeds.throw (List.forall_mem_nil _)
  | succ left ih =>
      apply tests.bind
      intro value _
      split
      · apply heeds.bind
        intro goesOn _
        split
        · exact ih
        · exact Heeds.pure trivial
      · exact Heeds.pure trivial

end

end Run

/-! ### Expressions and statements -/

def Stmt.SparesPrinter (statement : Stmt) : Prop :=
  ∀ part : Stmt, part.Occurs [statement] → part.target? ≠ some "printline"

theorem Stmt.SparesPrinter.of_bodies {statement : Stmt} (spares : statement.SparesPrinter)
    {block : Block} (isBody : block ∈ statement.bodies) :
    ∀ inner ∈ block, inner.SparesPrinter := by
  intro inner member part occurs
  have inBlock := occurs.mono (List.cons_subset.mpr ⟨member, List.nil_subset _⟩)
  exact spares part (.deeper List.mem_cons_self isBody inBlock)

namespace Run

variable [Limits]

section

variable {names : String → Prop} {rounds depth height : Nat}

def ExpressionsHeed (names : String → Prop) (height rounds depth : Nat) : Prop :=
  ∀ expression : Expr, Covers names expression.names →
    Heeds names height (fun found => Covers names found.names) (evaluate rounds depth expression)

def StatementsHeed (names : String → Prop) (height rounds depth : Nat) : Prop :=
  ∀ statement : Stmt, Covers names statement.names → 1 ≤ height ∨ statement.SparesPrinter →
    HeedsAny names height (execute rounds depth statement)

theorem StatementsHeed.block (statements : StatementsHeed names height rounds depth)
    {block : Block} (covered : Covers names (Stmt.namesOfAll block))
    (spared : 1 ≤ height ∨ ∀ inner ∈ block, inner.SparesPrinter) :
    HeedsAny names height (runBlock (execute rounds depth) block) := by
  rw [Stmt.namesOfAll_eq] at covered
  apply Heeds.forM
  intro inner member
  apply statements inner (List.forall_mem_flatMap.mp covered inner member)
  rcases spared with deep | spares
  · exact .inl deep
  · exact .inr (spares inner member)

private theorem preserves_block (rounds depth : Nat) (block : Block) (scopes : Scopes) :
    Preserves (SameOuter scopes) (runBlock (execute rounds depth) block) :=
  preserves_runBlock (fun statement => preserves_execute rounds depth statement scopes) block

theorem StatementsHeed.round (statements : StatementsHeed names 1 rounds depth)
    {entries : Entries Value} (given : ∀ entry ∈ entries, Covers names entry.2.names) {body : Block}
    (covered : Covers names (Stmt.namesOfAll body)) :
    HeedsAny names height (round entries (runBlock (execute rounds depth) body)) := by
  apply Heeds.round
  apply Heeds.inScope given
  · exact preserves_block rounds depth body
  · exact statements.block covered (.inl (Nat.le_refl 1))

theorem StatementsHeed.callNamed (statements : StatementsHeed names 1 rounds depth)
    (name : String) {callee : Value} (covered : Covers names callee.names) {arguments : List Value}
    (given : ∀ argument ∈ arguments, Covers names argument.names) :
    Heeds names height (fun found => Covers names found.names)
      (callNamed (execute rounds depth) name callee arguments) := by
  cases callee with
  | function identity parameters body =>
      apply Heeds.inScope
      · apply Entries.forall_mem_ofPairs
        intro pair member
        exact given pair.2 (List.of_mem_zip member).2
      · intro scopes
        exact Keeps.returning trivial (fun _ _ => trivial) (fun _ _ _ => trivial)
          (preserves_block rounds depth body scopes)
      · exact (statements.block covered (.inl (Nat.le_refl 1))).returning
  | service identity offered => exact heeds_perform offered given
  | _ => exact Heeds.fail _

private theorem ExpressionsHeed.all (expressions : ExpressionsHeed names height rounds depth)
    {listed : List Expr} (covered : Covers names (Expr.namesOfAll listed)) :
    Heeds names height (fun found => ∀ value ∈ found, Covers names value.names)
      (listed.mapM (evaluate rounds depth)) := by
  rw [Expr.namesOfAll_eq] at covered
  apply Heeds.mapM
  intro expression member
  exact expressions expression (List.forall_mem_flatMap.mp covered expression member)

private theorem expressionsHeed_succ
    (expressions : ExpressionsHeed names height rounds depth)
    (statements : StatementsHeed names 1 rounds depth) :
    ExpressionsHeed names height rounds (depth + 1) := by
  intro expression covered
  cases expression with
  | literal value =>
      apply Heeds.pure
      rw [Value.names_ofLiteral]
      exact List.forall_mem_nil _
  | «variable» name => exact heeds_lookup (covered name List.mem_cons_self)
  | binary left operator right =>
      obtain ⟨leftCovered, rightCovered⟩ := List.forall_mem_append.mp covered
      apply (expressions left leftCovered).bind
      intro leftValue leftIsCovered
      apply (expressions right rightCovered).bind
      intro rightValue rightIsCovered
      exact heeds_operate operator leftIsCovered rightIsCovered
  | table entries =>
      have each : ∀ entry ∈ entries, Covers names entry.2.names := by
        rw [Expr.names, Expr.namesOfFields_eq] at covered
        exact List.forall_mem_flatMap.mp covered
      have fields := Heeds.mapM entries fun entry member =>
        (expressions entry.2 (each entry member)).bind fun value _ =>
          (Heeds.pure trivial : HeedsAny names height (pure (entry.1, value)))
      apply fields.bind
      intro found _
      exact heeds_newIdentity.bind fun identity _ => Heeds.pure (List.forall_mem_nil _)
  | call callee arguments =>
      obtain ⟨isName, argumentsCovered⟩ := List.forall_mem_cons.mp covered
      apply (heeds_lookup isName).bind
      intro value isCovered
      apply (expressions.all argumentsCovered).bind
      intro values given
      exact statements.callNamed callee isCovered given
  | misplaced sort => exact Heeds.fail _
  | lacking sort part => exact Heeds.fail _

private theorem statementsHeed_succ
    (expressions : ExpressionsHeed names height rounds depth)
    (inside : StatementsHeed names 1 rounds depth)
    (here : StatementsHeed names height rounds depth) :
    StatementsHeed names height rounds (depth + 1) := by
  intro statement covered spared
  -- What is set in this very scope: by the statement itself or by a block of a branch. The bodies
  -- of loops and functions have a scope of their own.
  have sparedName : ∀ name, statement.target? = some name → 1 ≤ height ∨ "printline" ≠ name := by
    intro name sets
    rcases spared with deep | spares
    · exact .inl deep
    · right
      rintro rfl
      exact spares statement (.here List.mem_cons_self) sets
  have blocks : ∀ block ∈ statement.bodies, Covers names (Stmt.namesOfAll block) →
      HeedsAny names height (runBlock (execute rounds depth) block) := by
    intro block isBody blockCovered
    apply here.block blockCovered
    rcases spared with deep | spares
    · exact .inl deep
    · exact .inr (spares.of_bodies isBody)
  cases statement with
  | print arguments =>
      apply (expressions.all covered).bind
      intro values given
      apply heeds_printer.bind
      intro printer _
      exact heeds_printWith printer given
  | assign name value =>
      apply (expressions value covered).bind
      intro result isCovered
      exact heeds_assign (sparedName name rfl) isCovered
  | branch condition body arms otherwise =>
      obtain ⟨armsCovered, otherwiseCovered⟩ := List.forall_mem_append.mp covered
      have each : ∀ arm ∈ (condition, body) :: arms,
          Covers names (arm.1.names ++ Stmt.namesOfAll arm.2) := by
        have all : Covers names (Stmt.namesOfArms ((condition, body) :: arms)) := armsCovered
        rw [Stmt.namesOfArms_eq] at all
        exact List.forall_mem_flatMap.mp all
      apply Heeds.chooseArm
      · intro arm member
        exact expressions arm.1 (List.forall_mem_append.mp (each arm member)).1
      · intro arm member
        apply blocks arm.2 _ (List.forall_mem_append.mp (each arm member)).2
        rcases List.mem_cons.mp member with rfl | inArms
        · exact List.mem_cons_self
        · have isBody : arm.2 ∈ arms.map Prod.snd := List.mem_map_of_mem inArms
          exact List.mem_cons_of_mem _ (List.mem_append_left _ isBody)
      · cases otherwise with
        | none => exact Heeds.pure trivial
        | some block =>
            have isBody : block ∈ (some block).toList := List.mem_singleton_self block
            exact blocks block (List.mem_cons_of_mem _ (List.mem_append_right _ isBody))
              otherwiseCovered
  | count name limit body =>
      obtain ⟨limitCovered, bodyCovered⟩ := List.forall_mem_append.mp covered
      apply (expressions limit limitCovered).bind
      intro value _
      cases value.integer? with
      | none => exact Heeds.fail _
      | some bound =>
          apply Heeds.countUp
          intro index
          exact inside.round (List.forall_mem_singleton.mpr (Covers.of_isPlain names rfl))
            bodyCovered
  | loop test body =>
      obtain ⟨testCovered, bodyCovered⟩ := List.forall_mem_append.mp covered
      exact Heeds.whileTrue (expressions test testCovered)
        (inside.round (List.forall_mem_nil _) bodyCovered) rounds
  | leave => exact Heeds.throw (List.forall_mem_nil _)
  | next => exact Heeds.throw (List.forall_mem_nil _)
  | define name parameters body =>
      apply heeds_newIdentity.bind
      intro identity _
      exact heeds_assign (sparedName name rfl) covered
  | result value =>
      cases value with
      | none => exact Heeds.throw (List.forall_mem_nil _)
      | some value =>
          apply (expressions value covered).bind
          intro result isCovered
          exact Heeds.throw isCovered
  | load library => exact heeds_load library
  | evaluate value => exact (expressions value covered).discard

end

theorem expressions_and_statements_heed (names : String → Prop) (rounds depth : Nat) :
    ∀ height, ExpressionsHeed names height rounds depth ∧
      StatementsHeed names height rounds depth := by
  -- The height is free in the induction: bodies of loops and functions need the case of height one,
  -- in which no statement need spare the name of what prints.
  induction depth with
  | zero => exact fun height => ⟨fun _ _ => Heeds.fail _, fun _ _ _ => Heeds.fail _⟩
  | succ depth ih =>
      intro height
      exact ⟨expressionsHeed_succ (ih height).1 (ih 1).2,
        statementsHeed_succ (ih height).1 (ih 1).2 (ih height).2⟩

end Run

end IndentScript
