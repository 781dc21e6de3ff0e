import IndentScript.Proofs.LookedUpNames

/-!
Chains of scopes are observed through lookup only. Two runs are compared that start on machines in
which every name has the same value, however the values are spread over scopes. The runs end alike,
with the same value or stop, and leave the same console and again the same values of all names.

The one thing that is not looked up through the chain is what prints: it is looked up in the global
scope. A run on a chain of one scope can change it, but a statement that comes from a source text does
not, since its name is spelled like a keyword. Functions and loops run on chains of at least two
scopes, so that nothing need be known of the functions that the machines hold.
-/

namespace IndentScript

/-- Two machines that are the same but for the way in which names get their values. -/
structure SameView (one other : Machine) : Prop where
  console : one.console = other.console
  nextIdentity : one.nextIdentity = other.nextIdentity
  visible : ∀ name, Run.find? name one.scopes = Run.find? name other.scopes
  printer : Entries.get? "printline" one.globals = Entries.get? "printline" other.globals

/-- Such machines with more than the given number of scopes each. -/
structure Twins (height : Nat) (one other : Machine) : Prop extends SameView one other where
  high : height < one.scopes.length
  otherHigh : height < other.scopes.length

/-- They agree on the set of all names. -/
theorem agreeOn_iff_twins {height : Nat} {one other : Machine} :
    AgreeOn (fun _ => True) height one other ↔ Twins height one other := by
  constructor
  · intro agree
    exact ⟨⟨agree.console, agree.nextIdentity, fun name => agree.visible name trivial,
      agree.printer⟩, agree.high, agree.otherHigh⟩
  · intro twins
    exact ⟨twins.console, twins.nextIdentity, fun name _ => twins.visible name,
      fun _ _ _ _ _ _ => trivial, twins.printer, twins.high, twins.otherHigh⟩

namespace Run

/-! ### Two runs -/

/-- The run ends alike on machines that are twins and leaves twins behind. -/
def Respects {α : Type} (height : Nat) (run : Run α) : Prop :=
  ∀ one other, Twins height one other →
    run.outcome one = run.outcome other ∧ Twins height (run.after one) (run.after other)

section

variable {α : Type} {height : Nat}

theorem respects_iff_heeds {value : α → Prop} (any : ∀ found, value found) {run : Run α} :
    Respects height run ↔ Heeds (fun _ => True) height value run := by
  constructor
  · intro respects one other agree
    obtain ⟨same, left⟩ := respects one other (agreeOn_iff_twins.mp agree)
    refine ⟨same, agreeOn_iff_twins.mpr left, ?_⟩
    cases run.outcome one with
    | ok found => exact any found
    | error signal => exact fun _ _ => trivial
  · intro heeds one other twins
    obtain ⟨same, left, _⟩ := heeds one other (agreeOn_iff_twins.mpr twins)
    exact ⟨same, agreeOn_iff_twins.mp left⟩

theorem respects_runBlock {run : Stmt → Run Unit} {block : Block}
    (statements : ∀ statement ∈ block, Respects height (run statement)) :
    Respects height (runBlock run block) := by
  have any : ∀ _ : Unit, True := fun _ => trivial
  apply (respects_iff_heeds any).mpr
  apply Heeds.forM
  intro statement member
  exact (respects_iff_heeds any).mp (statements statement member)

end

theorem respects_evaluate_and_execute [Limits] (rounds depth : Nat) :
    ∀ height, (∀ expression, Respects height (evaluate rounds depth expression)) ∧
      ∀ statement : Stmt, 1 ≤ height ∨ statement.SparesPrinter →
        Respects height (execute rounds depth statement) := by
  intro height
  have all : ∀ listed, Covers (fun _ => True) listed := fun _ _ _ => trivial
  obtain ⟨expressions, statements⟩ :=
    expressions_and_statements_heed (fun _ => True) rounds depth height
  constructor
  · intro expression
    exact (respects_iff_heeds fun found => all found.names).mpr (expressions expression (all _))
  · intro statement spared
    exact (respects_iff_heeds fun _ => trivial).mpr (statements statement (all _) spared)

end Run

/-! ### Flattened chains -/

theorem Entries.get?_ofPairs_reverse {α : Type} (name : String) (pairs : Entries α) :
    get? name (ofPairs pairs.reverse) = get? name pairs := by
  rw [ofPairs, List.foldl_reverse]
  induction pairs with
  | nil => rfl
  | cons pair rest ih =>
      obtain ⟨key, value⟩ := pair
      rw [List.foldr_cons, get?]
      by_cases same : key = name
      · rw [if_pos same, same, get?_set_self]
      · rw [if_neg same, get?_set_of_ne (Ne.symm same), ih]

theorem Entries.get?_append {α : Type} (name : String) (front back : Entries α) :
    get? name (front ++ back) = (get? name front).or (get? name back) := by
  induction front with
  | nil => rfl
  | cons pair rest ih =>
      obtain ⟨key, value⟩ := pair
      rw [List.cons_append, get?, get?]
      by_cases same : key = name
      · rw [if_pos same, if_pos same]
        rfl
      · rw [if_neg same, if_neg same, ih]

theorem Run.get?_flatten (name : String) (scopes : Scopes) :
    Entries.get? name scopes.flatten = find? name scopes := by
  induction scopes with
  | nil => rfl
  | cons scope outer ih => rw [List.flatten_cons, Entries.get?_append, ih, find?_cons]

namespace Machine

/-- The machine with the values of all names in one scope on top of the global one. -/
def flattened (machine : Machine) : Machine :=
  { machine with
    scopes := [Entries.ofPairs machine.scopes.flatten.reverse, machine.globals] }

theorem globals_mem {machine : Machine} (inside : machine.scopes ≠ []) :
    machine.globals ∈ machine.scopes := by
  unfold globals
  rw [List.getLast?_eq_some_getLast inside]
  exact List.getLast_mem inside

theorem sameView_flattened {machine : Machine} (inside : machine.scopes ≠ []) :
    SameView machine machine.flattened where
  console := rfl
  nextIdentity := rfl
  printer := rfl
  visible := by
    intro name
    rw [flattened, Run.find?_cons, Entries.get?_ofPairs_reverse, Run.get?_flatten]
    cases found : Run.find? name machine.scopes with
    | some value => rfl
    | none =>
        have missing := List.findSome?_eq_none_iff.mp found machine.globals (globals_mem inside)
        rw [Run.find?_cons, missing]
        rfl

end Machine

/-! ### Programs from source texts -/

def RunsAlike {α : Type} (run : Run α) (one other : Machine) : Prop :=
  run.outcome one = run.outcome other ∧ SameView (run.after one) (run.after other)

theorem Run.Respects.runsAlike {α : Type} {run : Run α} (respects : Respects 0 run)
    {one other : Machine} (view : SameView one other) (inside : one.scopes ≠ [])
    (otherInside : other.scopes ≠ []) : RunsAlike run one other := by
  have twins : Twins 0 one other :=
    ⟨view, List.length_pos_iff.mpr inside, List.length_pos_iff.mpr otherInside⟩
  obtain ⟨same, left⟩ := respects one other twins
  exact ⟨same, left.toSameView⟩

/-- An expression, and a statement of a program that comes from a source text, at whatever depth it
stands there, runs alike on any two chains of scopes in which every name has the same value; so does a
block of such statements, which runs alike on the chain and on one scope that holds all values. -/
theorem runsAlike_of_sameView [Limits] {source : String} {tokens : List Token} {nesting : Nat}
    {program : Program} (lexed : tokenize source = .ok tokens)
    (parsed : parseWithin nesting tokens = .ok program) {one other : Machine}
    (view : SameView one other) (inside : one.scopes ≠ []) (otherInside : other.scopes ≠ [])
    (rounds depth : Nat) :
    (∀ expression, RunsAlike (Run.evaluate rounds depth expression) one other) ∧
    (∀ statement : Stmt, statement.Occurs program.statements →
      RunsAlike (Run.execute rounds depth statement) one other) ∧
    ∀ block : Block, (∀ statement ∈ block, statement.Occurs program.statements) →
      RunsAlike (Run.runBlock (Run.execute rounds depth) block) one other ∧
        RunsAlike (Run.runBlock (Run.execute rounds depth) block) one one.flattened := by
  obtain ⟨expressions, statements⟩ := Run.respects_evaluate_and_execute rounds depth 0
  have respects : ∀ statement : Stmt, statement.Occurs program.statements →
      Run.Respects 0 (Run.execute rounds depth statement) := by
    intro statement occurs
    apply statements statement
    right
    intro part partOccurs
    exact (occurs.trans partOccurs).target_ne_keyword lexed parsed
      (rfl : Keyword.ofSpelling? "printline" = some .printlineWord)
  refine ⟨?_, ?_, ?_⟩
  · intro expression
    exact (expressions expression).runsAlike view inside otherInside
  · intro statement occurs
    exact (respects statement occurs).runsAlike view inside otherInside
  · intro block allOccur
    have runs := Run.respects_runBlock fun statement member =>
      respects statement (allOccur statement member)
    exact ⟨runs.runsAlike view inside otherInside,
      runs.runsAlike (Machine.sameView_flattened inside) inside (List.cons_ne_nil _ _)⟩

def shadowing : String :=
  "for i in range(2):\n    local x = x + i\n    printline(x)\n"

def shadowingTokens : List Token :=
  [⟨.keyword .forWord, .text "for", 1⟩, ⟨.identifier, .text "i", 1⟩,
    ⟨.keyword .inWord, .text "in", 1⟩, ⟨.keyword .rangeWord, .text "range", 1⟩,
    ⟨.symbol .openParen, .text "(", 1⟩, ⟨.number, .number 2, 1⟩,
    ⟨.symbol .closeParen, .text ")", 1⟩, ⟨.symbol .colon, .text ":", 1⟩, Token.opening 2,
    ⟨.keyword .localWord, .text "local", 2⟩, ⟨.identifier, .text "x", 2⟩,
    ⟨.symbol .assign, .text "=", 2⟩, ⟨.identifier, .text "x", 2⟩, ⟨.symbol .plus, .text "+", 2⟩,
    ⟨.identifier, .text "i", 2⟩, ⟨.keyword .printlineWord, .text "printline", 3⟩,
    ⟨.symbol .openParen, .text "(", 3⟩, ⟨.identifier, .text "x", 3⟩,
    ⟨.symbol .closeParen, .text ")", 3⟩, Token.closing 3, Token.final 3]

def shadowingProgram : Program :=
  ⟨[.count "i" (.literal (.int 2))
    [.assign "x" (.binary (.variable "x") .plus (.variable "i")), .print [.variable "x"]]]⟩

def nestedScopes : Machine :=
  { Machine.new {} with
    scopes := [[("x", .int 1)], [("x", .int 5), ("y", .int 2)], Machine.services] }

def mergedScopes : Machine :=
  { Machine.new {} with scopes := [[("y", .int 2)], ("x", .int 1) :: Machine.services] }

theorem sameView_nestedScopes : SameView nestedScopes mergedScopes where
  console := rfl
  nextIdentity := rfl
  printer := rfl
  visible := by
    intro name
    by_cases isX : name = "x"
    · rw [isX]
      rfl
    · by_cases isY : name = "y"
      · rw [isY]
        rfl
      · simp [nestedScopes, mergedScopes, Run.find?_cons, Entries.get?, Ne.symm isX, Ne.symm isY]

theorem runsAlike_nestedScopes :
    tokenize shadowing = .ok shadowingTokens ∧ parseWithin 5 shadowingTokens = .ok shadowingProgram ∧
      SameView nestedScopes mergedScopes ∧
      RunsAlike (Run.execute 10 20 (.print [.variable "x"])) nestedScopes mergedScopes ∧
      RunsAlike (Run.runBlock (Run.execute 10 20) shadowingProgram.statements) nestedScopes
        nestedScopes.flattened := by
  have lexed : tokenize shadowing = .ok shadowingTokens :=
    tokenize_eq_ok_iff.mpr ⟨by decide +kernel, by decide +kernel⟩
  have parsed : parseWithin 5 shadowingTokens = .ok shadowingProgram := rfl
  obtain ⟨_, statements, blocks⟩ := runsAlike_of_sameView lexed parsed sameView_nestedScopes
    (List.cons_ne_nil _ _) (List.cons_ne_nil _ _) 10 20
  refine ⟨lexed, parsed, sameView_nestedScopes, statements _ ?_, (blocks _ fun _ => .here).2⟩
  exact .deeper List.mem_cons_self List.mem_cons_self
    (.here (List.mem_cons_of_mem _ List.mem_cons_self))

end IndentScript
