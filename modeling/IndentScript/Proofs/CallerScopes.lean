import IndentScript.Proofs.Moments
import IndentScript.Proofs.ScopeChains
import IndentScript.Proofs.SourceTrees

/-!
What a function sees of its caller. The body of a function runs on the scopes of the caller with the
parameters on top, so that a name that is no parameter has there the value that it has where the
function is called, and a local variable of the caller can change what the call does.

It can only do so under a name that the call may look up: one in the body, one in a function among
the arguments, or one in a function that such a name stands for where the call is made. Two callers
that agree on these names, apart from the parameters, get the same answer and the same console.
-/

namespace IndentScript

/-! ### The scope of a call -/

theorem Entries.get?_eq_none_iff {α : Type} {name : String} {entries : Entries α} :
    get? name entries = none ↔ name ∉ names entries := by
  induction entries with
  | nil => exact ⟨fun _ => List.not_mem_nil, fun _ => rfl⟩
  | cons entry rest ih =>
      obtain ⟨key, value⟩ := entry
      by_cases same : key = name
      · simp [get?, names, same]
      · simp [get?, names, same, Ne.symm same] at ih ⊢
        exact ih

theorem Entries.get?_ofPairs {α : Type} (name : String) (pairs : Entries α) :
    get? name (ofPairs pairs) = get? name pairs.reverse := by
  have reversed := get?_ofPairs_reverse name pairs.reverse
  rwa [List.reverse_reverse] at reversed

/-- With an argument for each parameter, the scope of a call has a value for exactly the
parameters. -/
theorem Entries.get?_parameters_eq_none_iff {α : Type} {parameters : List String}
    {arguments : List α} (supplied : parameters.length ≤ arguments.length) {name : String} :
    get? name (ofPairs (parameters.zip arguments)) = none ↔ name ∉ parameters := by
  rw [get?_ofPairs, get?_eq_none_iff, names, List.map_reverse, List.mem_reverse,
    List.map_fst_zip supplied]

namespace Run

section

variable {parameters : List String} {arguments : List Value}

theorem find?_enter_of_not_mem (supplied : parameters.length ≤ arguments.length) {name : String}
    (outside : name ∉ parameters) (machine : Machine) :
    find? name (machine.enter (Entries.ofPairs (parameters.zip arguments))).scopes =
      find? name machine.scopes := by
  have missing := (Entries.get?_parameters_eq_none_iff supplied).mpr outside
  rw [Machine.enter, find?_cons, missing]
  rfl

theorem find?_enter_of_mem (supplied : parameters.length ≤ arguments.length) {name : String}
    (isParameter : name ∈ parameters) :
    ∃ argument ∈ arguments, ∀ machine : Machine,
      find? name (machine.enter (Entries.ofPairs (parameters.zip arguments))).scopes =
        some argument := by
  cases bound : Entries.get? name (Entries.ofPairs (parameters.zip arguments)) with
  | none => exact absurd isParameter ((Entries.get?_parameters_eq_none_iff supplied).mp bound)
  | some argument =>
      have given : ∀ pair ∈ parameters.zip arguments, pair.2 ∈ arguments :=
        fun pair member => (List.of_mem_zip member).2
      refine ⟨argument, Entries.forall_mem_ofPairs given _ (Entries.mem_of_get? bound), ?_⟩
      intro machine
      rw [Machine.enter, find?_cons, bound]
      rfl

end

/-! ### Names that a call may look up -/

/-- The names that a call may look up on the scopes of its caller. -/
inductive MayLookUp (scopes : Scopes) (parameters : List String) (body : Block)
    (arguments : List Value) : String → Prop where
  | inBody {name : String} :
    name ∈ Stmt.namesOfAll body → MayLookUp scopes parameters body arguments name
  | inArgument {name : String} {argument : Value} :
    argument ∈ arguments → name ∈ argument.names →
      MayLookUp scopes parameters body arguments name
  | through {name called : String} {value : Value} :
    MayLookUp scopes parameters body arguments called → called ∉ parameters →
      find? called scopes = some value → name ∈ value.names →
      MayLookUp scopes parameters body arguments name

/-- The callers agree on every name that the call may look up, apart from the parameters. -/
def CallersAgree (one other : Machine) (parameters : List String) (body : Block)
    (arguments : List Value) : Prop :=
  ∀ name, MayLookUp one.scopes parameters body arguments name → name ∉ parameters →
    find? name one.scopes = find? name other.scopes

/-- The runs end with the same value or stop, at the same console and with the same supply of
identities. -/
def EndsAlike {α : Type} (run : Run α) (one other : Machine) : Prop :=
  run.outcome one = run.outcome other ∧
    (run.after one).console = (run.after other).console ∧
    (run.after one).nextIdentity = (run.after other).nextIdentity

section

variable {one other : Machine} {locals otherLocals : Scopes} {globals : Entries Value}
variable {parameters : List String} {body : Block} {arguments : List Value}

/-- Inside the call the machines agree on all names that it may look up. -/
theorem CallersAgree.enter (agree : CallersAgree one other parameters body arguments)
    (scopes : one.scopes = locals ++ [globals])
    (otherScopes : other.scopes = otherLocals ++ [globals]) (console : one.console = other.console)
    (identities : one.nextIdentity = other.nextIdentity)
    (supplied : parameters.length ≤ arguments.length) :
    AgreeOn (MayLookUp one.scopes parameters body arguments) 1
      (one.enter (Entries.ofPairs (parameters.zip arguments)))
      (other.enter (Entries.ofPairs (parameters.zip arguments))) := by
  have printers : ∀ {machine : Machine} {inner : Scopes}, machine.scopes = inner ++ [globals] →
      ∀ entries, (machine.enter entries).globals = globals := by
    intro machine inner chain entries
    rw [Machine.globals, Machine.enter, chain, ← List.cons_append, List.getLast?_concat]
    rfl
  have heights : ∀ {machine : Machine} {inner : Scopes}, machine.scopes = inner ++ [globals] →
      ∀ entries, 1 < (machine.enter entries).scopes.length := by
    intro machine inner chain entries
    rw [Machine.enter, chain, List.length_cons, List.length_append, List.length_singleton]
    omega
  refine ⟨console, identities, ?_, ?_, ?_, heights scopes _, heights otherScopes _⟩
  · intro name looks
    by_cases isParameter : name ∈ parameters
    · obtain ⟨argument, _, found⟩ := find?_enter_of_mem supplied isParameter
      rw [found one, found other]
    · rw [find?_enter_of_not_mem supplied isParameter, find?_enter_of_not_mem supplied isParameter]
      exact agree name looks isParameter
  · -- A function that is found is an argument or one that the caller finds, so that the call may
    -- look up its names, too.
    intro name value looks found
    by_cases isParameter : name ∈ parameters
    · obtain ⟨argument, given, isBound⟩ := find?_enter_of_mem supplied isParameter
      rw [isBound one] at found
      cases found
      exact fun inner listed => .inArgument given listed
    · rw [find?_enter_of_not_mem supplied isParameter] at found
      exact fun inner listed => .through looks isParameter found listed
  · rw [printers scopes, printers otherScopes]

theorem CallersAgree.endsAlike [Limits] (agree : CallersAgree one other parameters body arguments)
    (scopes : one.scopes = locals ++ [globals])
    (otherScopes : other.scopes = otherLocals ++ [globals]) (console : one.console = other.console)
    (identities : one.nextIdentity = other.nextIdentity)
    (supplied : parameters.length ≤ arguments.length) (rounds depth : Nat) (name : String)
    (identity : Nat) :
    EndsAlike (callNamed (execute rounds depth) name (.function identity parameters body) arguments)
      one other := by
  have inside := agree.enter scopes otherScopes console identities supplied
  obtain ⟨_, statements⟩ := expressions_and_statements_heed
    (MayLookUp one.scopes parameters body arguments) rounds depth 1
  have block := statements.block (fun _ listed => .inBody listed) (.inl (Nat.le_refl 1))
  obtain ⟨same, left, _⟩ := block.returning _ _ inside
  exact ⟨same, left.console, left.nextIdentity⟩

/-- Callers with the same global scope agree on names that their other scopes do not have. -/
theorem callersAgree_of_unbound (scopes : one.scopes = locals ++ [globals])
    (otherScopes : other.scopes = otherLocals ++ [globals])
    (unbound : ∀ name, MayLookUp one.scopes parameters body arguments name → name ∉ parameters →
      find? name locals = none ∧ find? name otherLocals = none) :
    CallersAgree one other parameters body arguments := by
  intro name looks outside
  obtain ⟨here, there⟩ := unbound name looks outside
  unfold find? at here there ⊢
  rw [scopes, otherScopes, List.findSome?_append, List.findSome?_append, here, there]

end

/-- A call with an argument for each parameter runs the body on the scopes of the caller below one
for the parameters, in which each parameter has an argument for its value and every other name the
value that it has for the caller. Two callers with the same global scope, console and supply of
identities get the same answer and output if they agree on every name that the call may look up,
apart from the parameters; so they do if the local scopes of neither have such a name. -/
theorem call_ends_alike_for_agreeing_callers [Limits] (rounds depth : Nat) {one other : Machine}
    {locals otherLocals : Scopes} {globals : Entries Value}
    (scopes : one.scopes = locals ++ [globals])
    (otherScopes : other.scopes = otherLocals ++ [globals]) (console : one.console = other.console)
    (identities : one.nextIdentity = other.nextIdentity) (name : String) (identity : Nat)
    {parameters : List String} (body : Block) {arguments : List Value}
    (supplied : parameters.length ≤ arguments.length) :
    let call := callNamed (execute rounds depth) name (.function identity parameters body) arguments
    let inside := one.enter (Entries.ofPairs (parameters.zip arguments))
    (call.outcome one = callEnd ((runBlock (execute rounds depth) body).outcome inside) ∧
      (∀ looked ∈ parameters, ∃ argument ∈ arguments, find? looked inside.scopes = some argument) ∧
      ∀ looked, looked ∉ parameters → find? looked inside.scopes = find? looked one.scopes) ∧
    (CallersAgree one other parameters body arguments → EndsAlike call one other) ∧
    ((∀ looked, MayLookUp one.scopes parameters body arguments looked → looked ∉ parameters →
        find? looked locals = none ∧ find? looked otherLocals = none) →
      EndsAlike call one other) := by
  have alike : CallersAgree one other parameters body arguments → EndsAlike _ one other :=
    fun agree => agree.endsAlike scopes otherScopes console identities supplied rounds depth name
      identity
  refine ⟨⟨outcome_returning _ _, ?_, ?_⟩, alike, ?_⟩
  · intro looked isParameter
    obtain ⟨argument, given, found⟩ := find?_enter_of_mem supplied isParameter
    exact ⟨argument, given, found one⟩
  · intro looked outside
    exact find?_enter_of_not_mem supplied outside one
  · intro unbound
    exact alike (callersAgree_of_unbound scopes otherScopes unbound)

def adders : Entries Value :=
  Machine.services ++
    [("k", .int 3),
      ("add", .function 4 ["m"] [.result (some (.binary (.variable "m") .plus (.variable "k")))]),
      ("show", .function 5 ["n"] [.print [.call "add" [.variable "n"]]])]

def callingFrom (locals : Scopes) : Machine :=
  { Machine.new {} with scopes := locals ++ [adders] }

theorem call_ends_alike_in_loop_and_call :
    let one := callingFrom [[("i", .int 0)], [("x", .int 1)]]
    let other := callingFrom [[("x", .int 2), ("y", .int 7)]]
    let body := [Stmt.print [.call "add" [.variable "n"]]]
    let call := callNamed (execute 10 20) "show" (.function 5 ["n"] body) [.int 5]
    one.scopes = [[("i", .int 0)], [("x", .int 1)]] ++ [adders] ∧
      other.scopes = [[("x", .int 2), ("y", .int 7)]] ++ [adders] ∧
      (∀ looked, MayLookUp one.scopes ["n"] body [.int 5] looked → looked ∉ ["n"] →
        find? looked [[("i", .int 0)], [("x", .int 1)]] = none ∧
          find? looked [[("x", .int 2), ("y", .int 7)]] = none) ∧
      EndsAlike call one other ∧ (call.after one).console.output = .plain "8 \n" := by
  intro one other body call
  have looks : ∀ looked, MayLookUp one.scopes ["n"] body [.int 5] looked →
      looked ∈ ["add", "n", "m", "k"] := by
    intro looked may
    induction may with
    | inBody listed => exact List.mem_append_left ["m", "k"] listed
    | inArgument given listed =>
        cases List.mem_singleton.mp given
        cases listed
    | through _ _ found listed ih =>
        simp only [List.mem_cons, List.not_mem_nil, or_false] at ih
        rcases ih with rfl | rfl | rfl | rfl
        · cases found
          exact List.mem_append_right ["add", "n"] listed
        · cases found
        · cases found
        · cases found
          cases listed
  have unbound : ∀ looked, MayLookUp one.scopes ["n"] body [.int 5] looked → looked ∉ ["n"] →
      find? looked [[("i", .int 0)], [("x", .int 1)]] = none ∧
        find? looked [[("x", .int 2), ("y", .int 7)]] = none := by
    intro looked may _
    have listed := looks looked may
    simp only [List.mem_cons, List.not_mem_nil, or_false] at listed
    rcases listed with rfl | rfl | rfl | rfl <;> exact ⟨rfl, rfl⟩
  have supplied : ["n"].length ≤ [Value.int 5].length := Nat.le_refl 1
  have ends := @call_ends_alike_for_agreeing_callers _ 10 20 one other _ _ adders rfl rfl rfl rfl
    "show" 5 ["n"] body [.int 5] supplied
  exact ⟨rfl, rfl, unbound, ends.2.2 unbound, by decide +kernel⟩

def showsVariable : String := "func f():\n    printline(x)\n"

/-- The same call prints the local variable of its caller, whatever that is. -/
theorem call_prints_local_of_caller :
    let machine := (Machine.runSource showsVariable (Machine.new {})).2
    let function := Value.function 4 [] [.print [.variable "x"]]
    let printed := fun locals : Scopes =>
      ((callNamed (execute 10 20) "f" function []).after
        { machine with scopes := locals ++ [machine.globals] }).console.output
    Entries.get? "f" machine.globals = some function ∧
      printed [[("x", .int 1)]] = .plain "1 \n" ∧ printed [[("x", .int 2)]] = .plain "2 \n" := by
  have compiled : compile showsVariable = .ok ⟨[.define "f" [] [.print [.variable "x"]]]⟩ := by
    refine compile_eq_ok_iff.mpr ⟨[⟨.keyword .funcWord, .text "func", 1⟩,
      ⟨.identifier, .text "f", 1⟩, ⟨.symbol .openParen, .text "(", 1⟩,
      ⟨.symbol .closeParen, .text ")", 1⟩, ⟨.symbol .colon, .text ":", 1⟩, Token.opening 2,
      ⟨.keyword .printlineWord, .text "printline", 2⟩, ⟨.symbol .openParen, .text "(", 2⟩,
      ⟨.identifier, .text "x", 2⟩, ⟨.symbol .closeParen, .text ")", 2⟩, Token.closing 2,
      Token.final 2], ?_, rfl⟩
    exact tokenize_eq_ok_iff.mpr ⟨by decide +kernel, by decide +kernel⟩
  intro machine function printed
  refine ⟨?_, by decide +kernel, by decide +kernel⟩
  have defined : machine.globals = Machine.services ++ [("f", function)] := by
    change (Machine.runSource showsVariable (Machine.new {})).2.globals = _
    rw [Machine.runSource, compiled]
    rfl
  rw [defined]
  rfl

end Run

end IndentScript
