import IndentScript.Machine.Session
import IndentScript.Proofs.Concatenation
import IndentScript.Proofs.PrintedExpressions

/-!
Formulas without parentheses: whole numbers with signs of arithmetic and comparison between them.

By convention a product binds tighter than a sum and a sum tighter than a comparison, and signs of one
strength join from the left. Every row of numbers and signs can be grouped by convention in one way.
In this language the signs are all of one strength, and a row is grouped from the left. That is the
grouping by convention exactly if no sign is tighter than one before it.
-/

namespace IndentScript

/-! ### Signs and figures -/

inductive Joiner where
  | plus | minus | times | less | greater | equals
  deriving DecidableEq, Repr

inductive Figure where
  | number (value : Int)
  | truth (value : Bool)
  deriving DecidableEq, Repr

namespace Figure

def amount : Figure → Int
  | number value => value
  | truth value => if value then 1 else 0

def toValue : Figure → Value
  | number value => .int value
  | truth value => .bool value

end Figure

namespace Joiner

/-- How tight a sign binds by convention. -/
def strength : Joiner → Nat
  | times => 3
  | plus | minus => 2
  | less | greater | equals => 1

def combine (joiner : Joiner) (left right : Figure) : Figure :=
  match joiner with
  | plus => .number (left.amount + right.amount)
  | minus => .number (left.amount - right.amount)
  | times => .number (left.amount * right.amount)
  | less => .truth (left.amount < right.amount)
  | greater => .truth (left.amount > right.amount)
  | equals => .truth (left.amount = right.amount)

def symbol : Joiner → Symbol
  | plus => .plus
  | minus => .minus
  | times => .times
  | less => .less
  | greater => .greater
  | equals => .equals

def operator : Joiner → Operator
  | plus => .plus
  | minus => .minus
  | times => .times
  | less => .less
  | greater => .greater
  | equals => .equals

theorem arithmetic?_symbol (joiner : Joiner) :
    Operator.arithmetic? (.symbol joiner.symbol) = some joiner.operator := by
  cases joiner <;> rfl

variable [Limits]

/-- The operator of the language does to numbers and truth values what the sign says. -/
theorem apply_operator (joiner : Joiner) (left right : Figure) :
    joiner.operator.apply left.toValue right.toValue = .ok (joiner.combine left right).toValue := by
  have judged {p q : Prop} [Decidable p] [Decidable q] (same : p ↔ q) :
      (Except.ok (Value.bool p) : Except Fault Value) = .ok (.bool q) :=
    congrArg (fun truth => Except.ok (Value.bool truth)) (decide_eq_decide.mpr same)
  cases joiner with
  | plus | minus | times => cases left <;> cases right <;> rfl
  | less =>
      cases left <;> cases right
      all_goals exact judged (Option.some_inj.trans Int.compare_eq_lt)
  | greater =>
      cases left <;> cases right
      all_goals exact judged (Option.some_inj.trans Int.compare_eq_gt)
  | equals =>
      cases left <;> cases right
      all_goals exact judged (Option.some_inj.trans Int.compare_eq_eq)

theorem run_operate (joiner : Joiner) (left right : Figure) (machine : Machine) :
    (Run.operate joiner.operator left.toValue right.toValue).run.run machine =
      (.ok (joiner.combine left right).toValue, machine) := by
  unfold Run.operate
  rw [apply_operator]
  cases joiner <;> rfl

end Joiner

/-! ### Rows and formulas -/

@[ext]
structure Chain where
  first : Nat
  links : List (Joiner × Nat)
  deriving DecidableEq, Repr

inductive Formula where
  | number (value : Nat)
  | joined (left : Formula) (joiner : Joiner) (right : Formula)
  deriving DecidableEq, Repr

namespace Formula

/-- The numbers and signs of the formula in their order, without the grouping. -/
def chain : Formula → Chain
  | number value => ⟨value, []⟩
  | joined left joiner right =>
    ⟨left.chain.first, left.chain.links ++ (joiner, right.chain.first) :: right.chain.links⟩

def value : Formula → Figure
  | number value => .number value
  | joined left joiner right => joiner.combine left.value right.value

/-- The grouping is the conventional one: of the signs in the two parts that a sign joins, none is
looser than it, and on its right none is equally tight. -/
def IsConventional : Formula → Prop
  | number _ => True
  | joined left joiner right =>
    left.IsConventional ∧ right.IsConventional ∧
      (∀ link ∈ left.chain.links, joiner.strength ≤ link.1.strength) ∧
      ∀ link ∈ right.chain.links, joiner.strength < link.1.strength

/-- A sign is the last of the loosest in a row, with the given links before and behind it. -/
def Parts (before : List (Joiner × Nat)) (link : Joiner × Nat) (behind : List (Joiner × Nat)) : Prop :=
  (∀ other ∈ before, link.1.strength ≤ other.1.strength) ∧
    ∀ other ∈ behind, link.1.strength < other.1.strength

/-- Of two signs that part a row none is behind the other: it would be tighter and not tighter. -/
theorem Parts.none_behind {before gap behind : List (Joiner × Nat)} {link other : Joiner × Nat}
    (parts : Parts before link (gap ++ other :: behind))
    (otherParts : Parts (before ++ link :: gap) other behind) : False := by
  have tighter := parts.2 other (by simp)
  have notTighter := otherParts.1 link (by simp)
  omega

theorem Parts.unique {before behind otherBefore otherBehind : List (Joiner × Nat)}
    {link other : Joiner × Nat} (parts : Parts before link behind)
    (otherParts : Parts otherBefore other otherBehind)
    (same : before ++ link :: behind = otherBefore ++ other :: otherBehind) :
    before = otherBefore ∧ link = other ∧ behind = otherBehind := by
  rcases List.append_eq_append_iff.mp same with ⟨gap, rfl, rest⟩ | ⟨gap, rfl, rest⟩
  · cases gap with
    | nil =>
        obtain ⟨sameLink, sameBehind⟩ := List.cons.inj rest
        exact ⟨(List.append_nil before).symm, sameLink, sameBehind⟩
    | cons head gap =>
        obtain ⟨rfl, rfl⟩ := List.cons.inj rest
        exact (parts.none_behind otherParts).elim
  · cases gap with
    | nil =>
        obtain ⟨sameLink, sameBehind⟩ := List.cons.inj rest
        exact ⟨List.append_nil otherBefore, sameLink.symm, sameBehind.symm⟩
    | cons head gap =>
        obtain ⟨rfl, rfl⟩ := List.cons.inj rest
        exact (otherParts.none_behind parts).elim

/-- The grouping by convention is determined by the numbers and signs. -/
theorem IsConventional.eq_of_chain_eq {one other : Formula} (conventional : one.IsConventional)
    (otherConventional : other.IsConventional) (same : one.chain = other.chain) : one = other := by
  induction one generalizing other with
  | number value =>
      cases other with
      | number otherValue =>
          cases same
          rfl
      | joined left joiner right => simp [chain] at same
  | joined left joiner right ihLeft ihRight =>
      cases other with
      | number otherValue => simp [chain] at same
      | joined otherLeft otherJoiner otherRight =>
          obtain ⟨leftGrouped, rightGrouped, parts⟩ := conventional
          obtain ⟨otherLeftGrouped, otherRightGrouped, otherParts⟩ := otherConventional
          obtain ⟨sameFirst, sameLinks⟩ := Chain.mk.inj same
          obtain ⟨sameLeft, sameLink, sameRight⟩ := @Parts.unique _ _ _ _
            (joiner, right.chain.first) (otherJoiner, otherRight.chain.first) parts otherParts
            sameLinks
          obtain ⟨sameJoiner, sameSecond⟩ := Prod.mk.inj sameLink
          rw [ihLeft leftGrouped otherLeftGrouped (Chain.ext sameFirst sameLeft), sameJoiner,
            ihRight rightGrouped otherRightGrouped (Chain.ext sameSecond sameRight)]

/-- Puts one more sign and number behind a formula, below the signs that are looser. -/
def extend (formula : Formula) (joiner : Joiner) (operand : Nat) : Formula :=
  match formula with
  | number value => joined (number value) joiner (number operand)
  | joined left above right =>
    if above.strength < joiner.strength then joined left above (right.extend joiner operand)
    else joined (joined left above right) joiner (number operand)

theorem chain_extend (formula : Formula) (joiner : Joiner) (operand : Nat) :
    (formula.extend joiner operand).chain =
      ⟨formula.chain.first, formula.chain.links ++ [(joiner, operand)]⟩ := by
  induction formula with
  | number value => rfl
  | joined left above right _ ih =>
      rw [extend]
      by_cases looser : above.strength < joiner.strength
      · rw [if_pos looser, chain, ih, chain]
        simp
      · rw [if_neg looser]
        rfl

theorem IsConventional.extend {formula : Formula} (conventional : formula.IsConventional)
    (joiner : Joiner) (operand : Nat) : (formula.extend joiner operand).IsConventional := by
  induction formula with
  | number value => exact ⟨trivial, trivial, List.forall_mem_nil _, List.forall_mem_nil _⟩
  | joined left above right _ ih =>
      have whole := conventional
      obtain ⟨leftGrouped, rightGrouped, looserLeft, looserRight⟩ := conventional
      rw [Formula.extend]
      by_cases looser : above.strength < joiner.strength
      · rw [if_pos looser]
        refine ⟨leftGrouped, ih rightGrouped, looserLeft, ?_⟩
        rw [chain_extend]
        exact List.forall_mem_append.mpr ⟨looserRight, List.forall_mem_singleton.mpr looser⟩
      · rw [if_neg looser]
        refine ⟨whole, trivial, ?_, List.forall_mem_nil _⟩
        intro link member
        rcases List.mem_append.mp member with inLeft | inRight
        · have tight := looserLeft link inLeft
          omega
        · rcases List.mem_cons.mp inRight with rfl | behind
          · exact Nat.le_of_not_lt looser
          · have tight := looserRight link behind
            omega

end Formula

namespace Chain

def leftward (chain : Chain) : Formula :=
  chain.links.foldl (fun formula link => .joined formula link.1 (.number link.2))
    (.number chain.first)

def conventional (chain : Chain) : Formula :=
  chain.links.foldl (fun formula link => formula.extend link.1 link.2) (.number chain.first)

/-- No sign of the row binds tighter by convention than one before it. -/
def NeverTighter (chain : Chain) : Prop :=
  chain.links.Pairwise fun one other => other.1.strength ≤ one.1.strength

theorem leftward_concat (first : Nat) (links : List (Joiner × Nat)) (link : Joiner × Nat) :
    leftward ⟨first, links ++ [link]⟩ =
      .joined (leftward ⟨first, links⟩) link.1 (.number link.2) :=
  List.foldl_concat _ _ _ _

theorem conventional_concat (first : Nat) (links : List (Joiner × Nat)) (link : Joiner × Nat) :
    conventional ⟨first, links ++ [link]⟩ = (conventional ⟨first, links⟩).extend link.1 link.2 :=
  List.foldl_concat _ _ _ _

theorem chain_leftward (chain : Chain) : chain.leftward.chain = chain := by
  obtain ⟨first, links⟩ := chain
  induction links using List.reverseRecOn with
  | nil => rfl
  | append_singleton links link ih =>
      rw [leftward_concat, Formula.chain, ih]
      rfl

theorem chain_conventional (chain : Chain) : chain.conventional.chain = chain := by
  obtain ⟨first, links⟩ := chain
  induction links using List.reverseRecOn with
  | nil => rfl
  | append_singleton links link ih => rw [conventional_concat, Formula.chain_extend, ih]

theorem isConventional_conventional (chain : Chain) : chain.conventional.IsConventional := by
  obtain ⟨first, links⟩ := chain
  induction links using List.reverseRecOn with
  | nil => trivial
  | append_singleton links link ih =>
      rw [conventional_concat]
      exact ih.extend link.1 link.2

theorem isConventional_leftward_iff (chain : Chain) :
    chain.leftward.IsConventional ↔ chain.NeverTighter := by
  obtain ⟨first, links⟩ := chain
  unfold NeverTighter
  dsimp only
  induction links using List.reverseRecOn with
  | nil => exact iff_of_true trivial List.Pairwise.nil
  | append_singleton links link ih =>
      rw [leftward_concat, Formula.IsConventional, ih, chain_leftward, List.pairwise_append]
      constructor
      · rintro ⟨sorted, _, looser, _⟩
        refine ⟨sorted, List.pairwise_singleton _ _, fun one member other isLast => ?_⟩
        rw [List.mem_singleton.mp isLast]
        exact looser one member
      · rintro ⟨sorted, _, looser⟩
        exact ⟨sorted, trivial, fun one member => looser one member link List.mem_cons_self,
          List.forall_mem_nil _⟩

/-- The grouping from the left is that of the convention just for the rows in which no sign is
tighter than one before it. -/
theorem leftward_eq_iff (chain : Chain) {grouped : Formula} (conventional : grouped.IsConventional)
    (same : grouped.chain = chain) : chain.leftward = grouped ↔ chain.NeverTighter := by
  rw [← isConventional_leftward_iff]
  constructor
  · intro isGrouped
    rwa [isGrouped]
  · intro isConventional
    exact isConventional.eq_of_chain_eq conventional (chain.chain_leftward.trans same.symm)

/-- The row worked off from the left. -/
theorem value_leftward (chain : Chain) :
    chain.leftward.value = chain.links.foldl
      (fun figure link => link.1.combine figure (.number link.2)) (.number chain.first) := by
  obtain ⟨first, links⟩ := chain
  induction links using List.reverseRecOn with
  | nil => rfl
  | append_singleton links link ih =>
      rw [leftward_concat, Formula.value, ih, List.foldl_concat]
      rfl

end Chain

/-! ### Evaluation -/

namespace Formula

def expr : Formula → Expr
  | number value => .literal (.int value)
  | joined left joiner right => .binary left.expr joiner.operator right.expr

def height : Formula → Nat
  | number _ => 0
  | joined left _ right => max left.height right.height + 1

/-- A formula is evaluated to its value, on a machine that stays as it is, unless it nests too
deep. -/
theorem run_evaluate [Limits] (formula : Formula) (rounds depth : Nat) (machine : Machine) :
    (Run.evaluate rounds depth formula.expr).run.run machine =
      (if formula.height < depth then .ok formula.value.toValue else .error (.fault .tooDeep),
        machine) := by
  induction formula generalizing depth with
  | number value =>
      cases depth with
      | zero => rfl
      | succ depth =>
          have shallow : (number value).height < depth + 1 := Nat.succ_pos depth
          rw [if_pos shallow]
          rfl
  | joined left joiner right ihLeft ihRight =>
      cases depth with
      | zero => rfl
      | succ depth =>
          have leftRan := ihLeft depth
          have rightRan := ihRight depth
          rw [expr, Run.evaluate, height, value]
          by_cases leftShallow : left.height < depth
          · rw [if_pos leftShallow] at leftRan
            rw [Run.run_bind_ok leftRan]
            by_cases rightShallow : right.height < depth
            · rw [if_pos rightShallow] at rightRan
              rw [Run.run_bind_ok rightRan, joiner.run_operate, if_pos (by omega)]
            · rw [if_neg rightShallow] at rightRan
              rw [Run.run_bind_error rightRan, if_neg (by omega)]
          · rw [if_neg leftShallow] at leftRan
            rw [Run.run_bind_error leftRan, if_neg (by omega)]

end Formula

theorem Chain.height_leftward (chain : Chain) : chain.leftward.height = chain.links.length := by
  obtain ⟨first, links⟩ := chain
  induction links using List.reverseRecOn with
  | nil => rfl
  | append_singleton links link ih =>
      rw [leftward_concat, Formula.height, ih]
      simp [Formula.height]

/-! ### Reading -/

def numberToken (value : Nat) : Token := ⟨.number, .number value, 0⟩

def Chain.linkTokens (links : List (Joiner × Nat)) : List Token :=
  links.flatMap fun link => [signToken link.1.symbol, numberToken link.2]

theorem Chain.length_linkTokens (links : List (Joiner × Nat)) :
    (linkTokens links).length = 2 * links.length := by
  induction links with
  | nil => rfl
  | cons link links ih =>
      rw [linkTokens, List.flatMap_cons, List.length_append, ← linkTokens, ih, List.length_cons]
      simp
      omega

def Chain.tokens (chain : Chain) : List Token :=
  numberToken chain.first :: linkTokens chain.links

namespace Parser

theorem run_term_number {inner : Parser Expr} {token : Token} {value : Nat}
    (alike : (numberToken value).Alike token) (rest : List Token) :
    term inner (token :: rest) = .ok (.literal (.int value), rest) := by
  obtain ⟨kind, payload, line⟩ := token
  obtain ⟨rfl, rfl⟩ : Kind.number = kind ∧ Payload.number value = payload := alike
  rfl

/-- Operators and numbers are taken in from the left, as long as the budget lasts. -/
theorem run_chainWithin_links {inner : Parser Expr} {rest : List Token}
    (ends : ∀ token ∈ rest.head?, Operator.arithmetic? token.kind = none)
    {links : List (Joiner × Nat)} {tokens : List Token}
    (alike : AlikeLists (Chain.linkTokens links) tokens) (left : Formula) {budget : List Token}
    (enough : links.length ≤ budget.length) :
    chainWithin Operator.arithmetic? (term inner) left.expr budget (tokens ++ rest) =
      .ok ((links.foldl (fun formula link => .joined formula link.1 (.number link.2)) left).expr,
        rest) := by
  induction links generalizing tokens left budget with
  | nil =>
      cases alike
      exact run_chainWithin_stop _ _ _ ends
  | cons link links ih =>
      obtain ⟨sign, others, sameSign, alikeOthers, rfl⟩ := List.forall₂_cons_left_iff.mp alike
      obtain ⟨number, more, sameNumber, alikeMore, rfl⟩ :=
        List.forall₂_cons_left_iff.mp alikeOthers
      cases budget with
      | nil => cases enough
      | cons spent budget =>
          have known : Operator.arithmetic? sign.kind = some link.1.operator := by
            rw [← sameSign.1]
            exact link.1.arithmetic?_symbol
          have operand : term inner (number :: (more ++ rest)) = _ :=
            run_term_number sameNumber (more ++ rest)
          exact (run_chainWithin_step known operand left.expr spent budget).trans
            (ih alikeMore (.joined left link.1 (.number link.2)) (Nat.le_of_succ_le_succ enough))

/-- A row is read into the expression that is grouped from the left, wherever it stands. -/
theorem run_expression_chain (chain : Chain) (depth : Nat) {tokens rest : List Token}
    (alike : AlikeLists chain.tokens tokens) (after : AfterExpression rest) :
    expression (depth + 1) (tokens ++ rest) = .ok (chain.leftward.expr, rest) := by
  obtain ⟨number, more, sameNumber, alikeMore, rfl⟩ := List.forall₂_cons_left_iff.mp alike
  have first : term (expression depth) (number :: (more ++ rest)) = _ :=
    run_term_number sameNumber (more ++ rest)
  have enough : chain.links.length ≤ (more ++ rest).length := by
    have sameLength := alikeMore.length_eq.symm
    rw [Chain.length_linkTokens] at sameLength
    rw [List.length_append]
    omega
  refine run_chain_single ?_ fun token member => (after token member).2
  rw [comparison, Parser.chain]
  exact (run_bind first).trans (run_chainWithin_links (fun token member => (after token member).1)
    alikeMore (.number chain.first) enough)

end Parser

/-! ### Assignments of rows -/

namespace Chain

def assignment (chain : Chain) (name : String) : List Token :=
  wordToken .localWord :: nameToken name :: signToken .assign :: (chain.tokens ++ [Token.final 0])

theorem parseWithin_assignment (chain : Chain) (name : String) (depth : Nat) :
    parseWithin (depth + 1) (chain.assignment name) =
      .ok ⟨[.assign name chain.leftward.expr]⟩ := by
  have same : AlikeLists chain.tokens chain.tokens := List.forall₂_same.mpr fun _ _ => ⟨rfl, rfl⟩
  have after : AfterExpression [Token.final 0] := by
    intro token member
    cases member
    exact ⟨rfl, rfl⟩
  have value := Parser.run_expression_chain chain depth same after
  have read : Parser.statement (depth + 1) (chain.assignment name) =
      .ok (.assign name chain.leftward.expr, [Token.final 0]) := by
    change Parser.assignment (Parser.expression (depth + 1)) (chain.assignment name) = _
    rw [Parser.assignment, assignment, Parser.run_bind (Parser.run_expectWord .localWord _),
      Parser.run_bind (Parser.run_identifier name _),
      Parser.run_bind (Parser.run_expectSign .assign _), Parser.run_bind value]
    rfl
  have statements : Parser.statementsWithin .endOfSource (Parser.statement (depth + 1))
      (chain.assignment name) (chain.assignment name) =
        .ok ([.assign name chain.leftward.expr], [Token.final 0]) := by
    have goesOn : (wordToken .localWord).kind ≠ .endOfSource := Kind.noConfusion
    refine (Parser.statementsWithin_goesOn goesOn).trans ((Parser.run_bind read).trans ?_)
    exact Parser.run_bind (Parser.statementsWithin_stopped rfl)
  exact parseWithin_of_statements (List.cons_ne_nil _ _) statements

end Chain

theorem Machine.runProgramWithin_assign [Limits] (formula : Formula) (name : String)
    {rounds depth : Nat} (shallow : formula.height < depth) (machine : Machine) :
    machine.runProgramWithin rounds (depth + 1) ⟨[.assign name formula.expr]⟩ =
      (none, { machine with
        scopes := Run.assigned name formula.value.toValue machine.scopes }) := by
  have value := formula.run_evaluate rounds depth machine
  rw [if_pos shallow] at value
  have assigned : (Run.execute rounds (depth + 1) (.assign name formula.expr)).run.run machine =
      (.ok (), { machine with
        scopes := Run.assigned name formula.value.toValue machine.scopes }) := by
    rw [Run.execute, Run.run_bind_ok value]
    rfl
  have whole : (Run.programWithin rounds (depth + 1) ⟨[.assign name formula.expr]⟩).run.run machine =
      (.ok (), { machine with
        scopes := Run.assigned name formula.value.toValue machine.scopes }) := by
    unfold Run.programWithin Run.runBlock
    exact Run.run_bind_ok assigned _
  rw [Machine.runProgramWithin, whole]

/-- Running a source text that assigns a row binds the name to what the row comes to when it is worked
off from the left. -/
theorem Machine.runSource_assignment {chain : Chain} {name source : String} {tokens : List Token}
    (lexed : tokenize source = .ok tokens) (alike : AlikeLists (chain.assignment name) tokens)
    (short : chain.links.length + 1 < Run.depthLimit) (machine : Machine) :
    machine.runSource source =
      (none, { machine with
        scopes := Run.assigned name chain.leftward.value.toValue machine.scopes }) := by
  have parsed : parse tokens = .ok ⟨[.assign name chain.leftward.expr]⟩ :=
    parseWithin_eq_ok_of_alike alike (chain.parseWithin_assignment name _)
  obtain ⟨depth, limit⟩ : ∃ depth, Run.depthLimit = depth + 1 :=
    Nat.exists_eq_add_one.mpr (Nat.zero_lt_of_lt short)
  have shallow : chain.leftward.height < depth := by
    rw [chain.height_leftward]
    omega
  rw [Machine.runSource_of_compile lexed parsed, Machine.runProgram, limit,
    Machine.runProgramWithin_assign chain.leftward name shallow]
  rfl

/-- Formulas without parentheses are worked off from the left, with all signs equally tight. Wherever
a row of numbers and signs stands, it is read into the formula grouped from the left; this is
evaluated to the value of that formula unless it has too many signs, and a source text that assigns
the row binds the name to that value. Every row can be grouped by convention in one way. This is the
grouping that is read exactly if no sign is tighter than one before it, and the value is then the
conventional one. -/
theorem formula_worked_off_leftward (chain : Chain) :
    (∀ level tokens rest, AlikeLists chain.tokens tokens → AfterExpression rest →
      Parser.expression (level + 1) (tokens ++ rest) = .ok (chain.leftward.expr, rest)) ∧
    (∀ rounds depth machine, (Run.evaluate rounds depth chain.leftward.expr).run.run machine =
      (if chain.links.length < depth then .ok chain.leftward.value.toValue
        else .error (.fault .tooDeep), machine)) ∧
    (∀ name source tokens, tokenize source = .ok tokens →
      AlikeLists (chain.assignment name) tokens → chain.links.length + 1 < Run.depthLimit →
        ∀ machine : Machine, machine.runSource source =
          (none, { machine with
            scopes := Run.assigned name chain.leftward.value.toValue machine.scopes })) ∧
    chain.leftward.value = chain.links.foldl
      (fun figure link => link.1.combine figure (.number link.2)) (.number chain.first) ∧
    ∃ grouped : Formula, grouped.chain = chain ∧ grouped.IsConventional ∧
      (∀ other : Formula, other.chain = chain → other.IsConventional → other = grouped) ∧
      (chain.leftward = grouped ↔ chain.NeverTighter) ∧
      (chain.NeverTighter → chain.leftward.value = grouped.value) := by
  have conventional := chain.isConventional_conventional
  have sameChain := chain.chain_conventional
  have same := chain.leftward_eq_iff conventional sameChain
  refine ⟨?_, ?_, ?_, chain.value_leftward, chain.conventional, sameChain, conventional, ?_, same, ?_⟩
  · intro level tokens rest alike after
    exact Parser.run_expression_chain chain level alike after
  · intro rounds depth machine
    rw [chain.leftward.run_evaluate, chain.height_leftward]
  · intro name source tokens lexed alike short machine
    exact Machine.runSource_assignment lexed alike short machine
  · intro other otherChain otherConventional
    exact otherConventional.eq_of_chain_eq conventional (otherChain.trans sameChain.symm)
  · intro neverTighter
    rw [same.mpr neverTighter]

def fallingSigns : Chain := ⟨2, [(.times, 3), (.plus, 4), (.less, 20)]⟩

theorem formula_worked_off_leftward_falling :
    (∃ grouped : Formula, grouped.chain = fallingSigns ∧ grouped.IsConventional ∧
      fallingSigns.leftward = grouped) ∧
      ((Machine.new {}).runSource "local x = 2 * 3 + 4 < 20").1.isNone = true ∧
      ((Machine.new {}).runSource "local x = 2 * 3 + 4 < 20").2.scopes =
        [Machine.services ++ [("x", .bool true)]] := by
  obtain ⟨_, _, runs, _, grouped, sameChain, conventional, _, same, _⟩ :=
    formula_worked_off_leftward fallingSigns
  have falling : fallingSigns.NeverTighter := by
    unfold Chain.NeverTighter
    decide
  let tokens := (fallingSigns.assignment "x").map fun token => { token with line := 1 }
  have lexed : tokenize "local x = 2 * 3 + 4 < 20" = .ok tokens :=
    tokenize_eq_ok_iff.mpr ⟨by decide +kernel, by decide +kernel⟩
  have alike : AlikeLists (fallingSigns.assignment "x") tokens :=
    List.forall₂_map_right_iff.mpr (List.forall₂_same.mpr fun _ _ => ⟨rfl, rfl⟩)
  have ran := runs "x" _ tokens lexed alike (by decide) (Machine.new {})
  refine ⟨⟨grouped, sameChain, conventional, same.mpr falling⟩, ?_, ?_⟩
  · rw [ran]
    rfl
  · rw [ran]
    rfl

def sumBeforeProduct : Chain := ⟨1, [(.plus, 2), (.times, 3)]⟩

def comparedSums : Chain := ⟨1, [(.plus, 2), (.equals, 3), (.plus, 0)]⟩

/-- By convention `1 + 2 * 3` comes to seven, and `1 + 2 == 3 + 0` says that two sums are equal. Here
the first is nine, and the second adds zero to what a comparison gives. -/
theorem formulas_not_conventional :
    (sumBeforeProduct.conventional.IsConventional ∧ comparedSums.conventional.IsConventional) ∧
      sumBeforeProduct.conventional =
        .joined (.number 1) .plus (.joined (.number 2) .times (.number 3)) ∧
      sumBeforeProduct.conventional.value = .number 7 ∧
      ((Machine.new {}).runSource "printline(1 + 2 * 3)").2.console.output = .plain "9 \n" ∧
      comparedSums.conventional = .joined (.joined (.number 1) .plus (.number 2)) .equals
        (.joined (.number 3) .plus (.number 0)) ∧
      comparedSums.conventional.value = .truth true ∧
      ((Machine.new {}).runSource "printline(1 + 2 == 3 + 0)").2.console.output = .plain "1 \n" :=
  ⟨⟨sumBeforeProduct.isConventional_conventional, comparedSums.isConventional_conventional⟩,
    by decide +kernel⟩

end IndentScript
