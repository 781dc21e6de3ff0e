import IndentScript.Proofs.ReaderSteps

/-!
Relations between two readers that hold of whole phrases if they hold of the steps.

What is to be shown of one reader is mostly to be shown of all: that it does not look at line numbers,
that it stops at the end of the source, that a higher limit makes no difference to it. Such a statement
is a relation between two readers. A relation that composes is shown of the few steps in which a reader
meets the tokens, and of the ways in which steps are put together. Then it holds of all the readers of
the grammar, as far as it holds of those for the parts of a phrase.

A relation has a limit, which a token that must be there raises by one. Where there is nothing to limit,
it is the same relation for all limits.
-/

namespace IndentScript

/-- The kinds of tokens that stand inside a line. The others are those of the layout, and the word that
ends a function, which the end of the source may follow. -/
def Kind.isOrdinary : Kind → Bool
  | .endOfSource | .indent | .dedent | .keyword .returnWord => false
  | _ => true

/-- The kinds of tokens with which a phrase that could end goes on. -/
def Kind.continuations : List Kind :=
  Operator.all.map Operator.kind ++ [.symbol .comma, .keyword .elifWord, .keyword .elseWord]

/-- Tokens that differ at most in their line numbers. -/
def Token.Alike (one other : Token) : Prop :=
  one.kind = other.kind ∧ one.payload = other.payload

namespace Parser

/-! ### Relations that compose -/

/-- The reader fails at every token that is not ordinary, always for the same reason. -/
def Rejects {α : Type} (reader : Parser α) : Prop :=
  ∃ fault, ∀ token rest, token.kind.isOrdinary = false →
    ∃ left, reader (token :: rest) = .error ⟨fault, left⟩

/-- At the end of the source, one of two readers goes on and fails; or neither goes on, there and before
all tokens that continue nothing. -/
inductive Closes {α : Type} (low high : Kind → Parser α) : Prop where
  | fails : Takes (low .endOfSource) → Closes low high
  | settled (value : α) :
    (∀ kind ∉ Kind.continuations, low kind = pure value ∧ high kind = pure value) → Closes low high

/-- What a loop may do where its budget is spent up. It is over; or it fails, and then its rounds fail
at every token that is not ordinary. -/
def Lasts {σ : Type} (round : σ → Parser (Option σ)) (spentUp : σ → Parser σ) : Prop :=
  spentUp = pure ∨ (spentUp = fun _ => fail .noToken) ∧ ∀ gathered, Rejects (round gathered)

abbrev Relation :=
  (α : Type) → Nat → Parser α → Parser α → Prop

/-- The relation holds of the steps in which a reader meets the tokens, and of what is put together from
readers of which it holds. -/
structure Relation.Composes (holds : Relation) : Prop where
  weaken {α : Type} {limit : Nat} {low high : Parser α} :
    holds α (limit + 1) low high → holds α limit low high
  pure {α : Type} {limit : Nat} (value : α) : holds α limit (Pure.pure value) (Pure.pure value)
  unexpected {α : Type} {limit : Nat} :
    holds α limit (fail .expressionExpected) (fail .expressionExpected)
  bind {α β : Type} {limit : Nat} {low high : Parser α} {next otherNext : α → Parser β} :
    holds α limit low high → (∀ value, holds β limit (next value) (otherNext value)) →
      holds β limit (low >>= next) (high >>= otherNext)
  expect {β : Type} {limit : Nat} {kind : Kind} {next otherNext : Token → Parser β} :
    kind.isOrdinary = true →
    (∀ one other : Token, one.Alike other → holds β limit (next one) (otherNext other)) →
      holds β (limit + 1) (Parser.expect kind >>= next) (Parser.expect kind >>= otherNext)
  look {α : Type} {limit : Nat} {low high : Kind → Parser α} (absent : Option α) :
    Closes low high → (∀ kind, holds α limit (low kind) (high kind)) →
      holds α limit (looking absent low) (looking absent high)
  named {limit : Nat} {low high : String → Parser Expr} :
    (∀ name, holds Expr limit (low name) (high name)) →
      holds Expr (limit + 1) (named low) (named high)
  result {limit : Nat} {low high : Parser Expr} :
    holds Expr limit low high → Rejects high → holds Stmt limit (result low) (result high)
  inBlock {α : Type} {limit : Nat} {low high : Parser α} :
    holds α limit low high → holds α (limit + 1) (inBlock low) (inBlock high)
  repeated {σ : Type} {limit : Nat} {low high : σ → Parser (Option σ)} {spentUp : σ → Parser σ} :
    (∀ gathered, TakesToFind (low gathered)) →
    Lasts high spentUp →
    (∀ gathered, holds (Option σ) limit (low gathered) (high gathered)) →
      ∀ first, holds σ limit (repeated low spentUp first) (repeated high spentUp first)

/-- A phrase that goes on with a token of one kind only. -/
theorem closes_of_continuation {α : Type} {kind : Kind} (listed : kind ∈ Kind.continuations)
    (low high : Parser α) (value : α) :
    Closes (fun found => if found = kind then low else pure value)
      (fun found => if found = kind then high else pure value) := by
  refine .settled value ?_
  intro found outside
  have different : found ≠ kind := by
    rintro rfl
    exact outside listed
  rw [if_neg different, if_neg different]
  exact ⟨rfl, rfl⟩

/-! ### Readers that reject -/

section

variable {α β : Type}

theorem Rejects.bind {first : Parser α} (rejects : Rejects first) (next : α → Parser β) :
    Rejects (first >>= next) := by
  obtain ⟨fault, fails⟩ := rejects
  refine ⟨fault, ?_⟩
  intro token rest known
  obtain ⟨left, ends⟩ := fails token rest known
  exact ⟨left, bind_error ends next⟩

theorem ne_of_isOrdinary {kind other : Kind} (ordinary : other.isOrdinary = true)
    (known : kind.isOrdinary = false) : kind ≠ other := by
  rintro rfl
  rw [ordinary] at known
  cases known

theorem rejects_expect {kind : Kind} (ordinary : kind.isOrdinary = true) : Rejects (expect kind) := by
  refine ⟨.expected kind, ?_⟩
  intro token rest known
  exact ⟨_, expect_of_ne (ne_of_isOrdinary ordinary known) rest⟩

theorem rejects_identifier : Rejects identifier :=
  (rejects_expect rfl).bind _

theorem rejects_tableField (expression : Parser Expr) : Rejects (tableField expression) :=
  (rejects_expect rfl).bind _

theorem Rejects.gathering {item : Parser α} (rejects : Rejects item) (close : Symbol)
    (gathered : List α) : Rejects (gathering (nextListed close item) gathered) := by
  apply Rejects.bind
  rw [nextListed_eq]
  obtain ⟨fault, fails⟩ := rejects.bind fun value => skipComma >>= fun _ => pure (some value)
  refine ⟨fault, ?_⟩
  intro token rest known
  have notClosed : token.kind ≠ .symbol close := ne_of_isOrdinary rfl known
  rw [looking, if_neg notClosed]
  exact fails token rest known

theorem term_fails (expression : Parser Expr) {token : Token} (known : token.kind.isOrdinary = false)
    (rest : List Token) :
    term expression (token :: rest) = .error ⟨.expressionExpected, token :: rest⟩ := by
  obtain ⟨kind, payload, line⟩ := token
  cases kind with
  | endOfSource => rfl
  | indent => rfl
  | dedent => rfl
  | keyword word =>
      cases word with
      | returnWord => rfl
      | _ => cases known
  | _ => cases known

theorem logical_fails (expression : Parser Expr) {token : Token} (known : token.kind.isOrdinary = false)
    (rest : List Token) :
    logical expression (token :: rest) = .error ⟨.expressionExpected, token :: rest⟩ :=
  bind_error (bind_error (term_fails expression known rest) _) _

theorem rejects_logical (expression : Parser Expr) : Rejects (logical expression) :=
  ⟨.expressionExpected, fun token rest known => ⟨token :: rest, logical_fails expression known rest⟩⟩

theorem rejects_expression (depth : Nat) : Rejects (expression depth) := by
  cases depth with
  | zero => exact ⟨.tooDeep, fun token rest _ => ⟨token :: rest, rfl⟩⟩
  | succ depth => exact rejects_logical (expression depth)

end

namespace Relation.Composes

variable {holds : Relation} (composes : holds.Composes) {limit : Nat}

include composes

/-! ### Steps -/

theorem expectKind {kind : Kind} (ordinary : kind.isOrdinary = true) {β : Type}
    {next otherNext : Parser β} (goesOn : holds β limit next otherNext) :
    holds β (limit + 1) (Parser.expect kind >>= fun _ => next)
      (Parser.expect kind >>= fun _ => otherNext) :=
  composes.expect ordinary fun _ _ _ => goesOn

theorem expectWord (word : Keyword) (ordinary : word ≠ .returnWord) :
    holds Unit limit (Parser.expectWord word) (Parser.expectWord word) := by
  apply composes.weaken
  apply composes.expectKind
  · cases word with
    | returnWord => exact absurd rfl ordinary
    | _ => rfl
  · exact composes.pure ()

theorem expectSign (sign : Symbol) :
    holds Unit limit (Parser.expectSign sign) (Parser.expectSign sign) :=
  composes.weaken (composes.expectKind rfl (composes.pure ()))

theorem identifier : holds String limit Parser.identifier Parser.identifier := by
  apply composes.weaken
  apply composes.expect rfl
  intro one other alike
  rw [alike.2]
  exact composes.pure _

theorem skipComma : holds Unit limit Parser.skipComma Parser.skipComma := by
  rw [skipComma_eq]
  apply composes.look
  · exact closes_of_continuation (by decide) _ _ ()
  · intro kind
    split
    · exact composes.weaken (composes.expectKind rfl (composes.pure ()))
    · exact composes.pure ()

/-! ### Repetition -/

section

variable {α : Type}

theorem gathering {low high : Parser (Option α)} (related : holds (Option α) limit low high)
    (gathered : List α) :
    holds (Option (List α)) limit (Parser.gathering low gathered)
      (Parser.gathering high gathered) := by
  apply composes.bind related
  intro found
  cases found with
  | none => exact composes.pure none
  | some value => exact composes.pure _

theorem listed (close : Symbol) {low high : Parser α} (takes : Takes low) (rejects : Rejects high)
    (related : holds α limit low high) :
    holds (List α) limit (Parser.listed close low) (Parser.listed close high) := by
  have items : ∀ gathered, holds (Option (List α)) limit
      (Parser.gathering (nextListed close low) gathered)
      (Parser.gathering (nextListed close high) gathered) := by
    apply composes.gathering
    rw [nextListed_eq, nextListed_eq]
    apply composes.look
    · apply Closes.fails
      -- The end of the source closes no list.
      rw [if_neg Kind.noConfusion]
      intro tokens value rest success
      obtain ⟨_, middle, read, afterItem⟩ := bind_eq_ok success
      obtain ⟨_, comma, _, rfl, _, afterComma⟩ := sound_skipComma.step afterItem
      obtain ⟨_, rfl⟩ := pure_eq_ok afterComma
      have shorter := takes _ _ _ read
      rw [List.length_append] at shorter
      omega
    · intro kind
      split
      · exact composes.pure none
      · apply composes.bind related
        intro value
        exact composes.bind composes.skipComma fun _ => composes.pure _
  rw [listed_eq, listed_eq]
  apply composes.bind
  · exact composes.repeated (takesToFind_nextListed close takes).gathering
      (.inr ⟨rfl, rejects.gathering close⟩) items []
  · intro found
    exact composes.bind (composes.expectSign close) fun _ => composes.pure found

theorem chain {operator? : Kind → Option Operator}
    (known : ∀ kind operator, operator? kind = some operator → kind ∈ Kind.continuations)
    {low high : Parser Expr} (takes : Takes low) (related : holds Expr limit low high) :
    holds Expr limit (Parser.chain operator? low) (Parser.chain operator? high) := by
  rw [chain_eq, chain_eq]
  apply composes.bind related
  apply composes.repeated (takesToFind_joining operator? takes) (.inl rfl)
  intro left
  rw [joining_eq, joining_eq]
  apply composes.look
  · refine .settled none ?_
    intro kind outside
    cases found : operator? kind with
    | none => exact ⟨rfl, rfl⟩
    | some operator => exact absurd (known kind operator found) outside
  · intro kind
    cases found : operator? kind with
    | none => exact composes.pure none
    | some operator =>
        have ordinary : ∀ kind ∈ Kind.continuations, kind.isOrdinary = true := by decide
        apply composes.weaken
        apply composes.expectKind (ordinary kind (known kind operator found))
        exact composes.bind related fun right => composes.pure _

theorem statementsUntil {stop : Kind} {lower higher : Parser Stmt} (takes : Takes lower)
    (next : holds (Option Stmt) limit (nextStatement stop lower) (nextStatement stop higher)) :
    holds Block limit (Parser.statementsUntil stop lower) (Parser.statementsUntil stop higher) := by
  rw [statementsUntil_eq, statementsUntil_eq]
  exact composes.repeated (takesToFind_nextStatement stop takes).gathering (.inl rfl)
    (composes.gathering next) []

end

/-! ### Expressions -/

section

variable {low high : Parser Expr} (sound : SoundExpression low) (rejects : Rejects high)
  (related : holds Expr limit low high)

include sound rejects related

theorem argumentsOf :
    holds (List Expr) limit (Parser.argumentsOf low) (Parser.argumentsOf high) :=
  composes.bind (composes.expectSign _) fun _ =>
    composes.listed _ (consumes_of_soundExpression sound).takes rejects related

omit sound rejects in
theorem condition : holds Expr (limit + 1) (Parser.condition low) (Parser.condition high) := by
  simp only [Parser.condition, Parser.expectSign, bind_assoc, pure_bind]
  apply composes.expectKind rfl
  apply composes.bind related
  intro value
  exact composes.weaken (composes.expectKind rfl (composes.pure value))

/-- An expression inside an operand comes behind the first token of it. -/
theorem term : holds Expr (limit + 1) (Parser.term low) (Parser.term high) := by
  have constant : ∀ kind : Kind, kind.isOrdinary = true →
      holds Expr (limit + 1) (Parser.expect kind >>= fun token => Pure.pure (.literal (literalOf token)))
        (Parser.expect kind >>= fun token => Pure.pure (.literal (literalOf token))) := by
    intro kind ordinary
    apply composes.expect ordinary
    intro one other alike
    rw [literalOf, literalOf, alike.2]
    exact composes.pure _
  have truth : ∀ kind : Kind, kind.isOrdinary = true →
      holds Expr (limit + 1)
        (Parser.expect kind >>= fun token =>
          Pure.pure (.literal (.bool (token.payload = .text "TRUE"))))
        (Parser.expect kind >>= fun token =>
          Pure.pure (.literal (.bool (token.payload = .text "TRUE")))) := by
    intro kind ordinary
    apply composes.expect ordinary
    intro one other alike
    rw [alike.2]
    exact composes.pure _
  rw [term_eq, term_eq]
  apply composes.look
  · apply Closes.fails
    intro tokens value rest success
    cases success
  · intro kind
    unfold termAt
    split
    · exact constant .number rfl
    · exact constant .string rfl
    · apply composes.named
      intro name
      exact composes.bind (composes.argumentsOf sound rejects related) fun _ => composes.pure _
    · exact truth _ rfl
    · exact truth _ rfl
    · exact composes.condition related
    · exact composes.unexpected

theorem logical : holds Expr (limit + 1) (Parser.logical low) (Parser.logical high) := by
  apply composes.chain _ (consumes_comparison sound).takes
  · apply composes.chain _ (consumes_term sound).takes
    · exact composes.term sound rejects related
    · have listed : ∀ operator ∈ Operator.tighter, operator.kind ∈ Kind.continuations := by decide
      intro kind operator found
      obtain ⟨level, rfl⟩ := Operator.arithmetic?_eq_some found
      exact listed operator level
  · have listed : ∀ operator ∈ Operator.looser, operator.kind ∈ Kind.continuations := by decide
    intro kind operator found
    obtain ⟨level, rfl⟩ := Operator.logical?_eq_some found
    exact listed operator level

end

/-! ### Statements

Expressions of a statement may be as deep as the statement. Statements in it are in a block and one
level less deep. -/

section

variable {low high : Parser Expr} {lower higher : Parser Stmt}

theorem nextStatement {stop : Kind} (noEnd : stop ≠ .endOfSource) (takes : Takes lower)
    (related : holds Stmt limit lower higher) :
    holds (Option Stmt) limit (Parser.nextStatement stop lower) (Parser.nextStatement stop higher) := by
  rw [nextStatement_eq, nextStatement_eq]
  apply composes.look
  · apply Closes.fails
    rw [if_neg noEnd.symm]
    exact takes.bind_pure _
  · intro kind
    split
    · exact composes.pure none
    · exact composes.bind related fun _ => composes.pure _

theorem body (sound : SoundStatement lower) (related : holds Stmt limit lower higher) :
    holds Block (limit + 1) (Parser.body lower) (Parser.body higher) := by
  have takes := (consumes_of_soundStatement sound).takes
  rw [body_eq, body_eq]
  apply composes.inBlock
  apply composes.statementsUntil takes
  exact composes.nextStatement Kind.noConfusion takes related

theorem assignment (related : holds Expr limit low high) :
    holds Stmt limit (Parser.assignment low) (Parser.assignment high) := by
  apply composes.bind (composes.expectWord _ Keyword.noConfusion)
  intro _
  apply composes.bind composes.identifier
  intro name
  apply composes.bind (composes.expectSign _)
  intro _
  exact composes.bind related fun value => composes.pure _

section

variable (soundExpression : SoundExpression low) (soundStatement : SoundStatement lower)
  (relatedExpression : holds Expr (limit + 1) low high)
  (relatedStatement : holds Stmt limit lower higher)

include soundStatement relatedStatement

theorem definition : holds Stmt (limit + 1) (Parser.definition lower) (Parser.definition higher) := by
  apply composes.bind (composes.expectWord _ Keyword.noConfusion)
  intro _
  apply composes.bind composes.identifier
  intro name
  apply composes.bind (composes.expectSign _)
  intro _
  apply composes.bind (composes.listed _ takes_identifier rejects_identifier composes.identifier)
  intro parameters
  apply composes.bind (composes.body soundStatement relatedStatement)
  intro found
  exact composes.pure _

include relatedExpression

theorem looping : holds Stmt (limit + 1) (Parser.looping low lower) (Parser.looping high higher) := by
  apply composes.bind (composes.expectWord _ Keyword.noConfusion)
  intro _
  apply composes.bind (composes.weaken (composes.condition relatedExpression))
  intro test
  apply composes.bind (composes.body soundStatement relatedStatement)
  intro found
  exact composes.pure _

theorem counting :
    holds Stmt (limit + 1) (Parser.counting low lower) (Parser.counting high higher) := by
  apply composes.bind (composes.expectWord _ Keyword.noConfusion)
  intro _
  apply composes.bind composes.identifier
  intro name
  apply composes.bind (composes.expectWord _ Keyword.noConfusion)
  intro _
  apply composes.bind (composes.expectWord _ Keyword.noConfusion)
  intro _
  apply composes.bind (composes.weaken (composes.condition relatedExpression))
  intro bound
  apply composes.bind (composes.body soundStatement relatedStatement)
  intro found
  exact composes.pure _

include soundExpression

theorem arms :
    holds (List (Expr × Block)) (limit + 1)
      (Parser.repeated (Parser.gathering (nextArm low lower)) Pure.pure [])
      (Parser.repeated (Parser.gathering (nextArm high higher)) Pure.pure []) := by
  apply composes.repeated (takesToFind_nextArm soundExpression soundStatement).gathering (.inl rfl)
  apply composes.gathering
  rw [nextArm_eq, nextArm_eq]
  apply composes.look
  · exact closes_of_continuation (by decide) _ _ none
  · intro kind
    split
    · apply composes.weaken
      apply composes.expectKind rfl
      apply composes.bind (composes.weaken (composes.condition relatedExpression))
      intro test
      apply composes.bind (composes.body soundStatement relatedStatement)
      intro found
      exact composes.pure _
    · exact composes.pure none

theorem branching :
    holds Stmt (limit + 1) (Parser.branching low lower) (Parser.branching high higher) := by
  rw [branching_eq, branching_eq]
  apply composes.bind (composes.expectWord _ Keyword.noConfusion)
  intro _
  apply composes.bind (composes.weaken (composes.condition relatedExpression))
  intro test
  apply composes.bind (composes.body soundStatement relatedStatement)
  intro found
  apply composes.bind
    (composes.arms soundExpression soundStatement relatedExpression relatedStatement)
  intro arms
  apply composes.look
  · exact closes_of_continuation (by decide) _ _ _
  · intro kind
    split
    · apply composes.weaken
      apply composes.expectKind rfl
      exact composes.bind (composes.body soundStatement relatedStatement) fun _ => composes.pure _
    · exact composes.pure _

end

theorem tableField (related : holds Expr limit low high) :
    holds (String × Expr) limit (Parser.tableField low) (Parser.tableField high) := by
  apply composes.weaken
  apply composes.expect rfl
  intro one other alike
  rw [alike.2]
  apply composes.bind (composes.expectSign _)
  intro _
  exact composes.bind related fun _ => composes.pure _

theorem tableDefinition (sound : SoundExpression low) (related : holds Expr limit low high) :
    holds Stmt limit (Parser.tableDefinition low) (Parser.tableDefinition high) := by
  apply composes.bind (composes.expectWord _ Keyword.noConfusion)
  intro _
  apply composes.bind composes.identifier
  intro name
  apply composes.bind (composes.expectSign _)
  intro _
  apply composes.bind (composes.expectSign _)
  intro _
  have takes := (consumes_of_soundExpression sound).takes.tableField
  apply composes.bind
    (composes.listed _ takes (rejects_tableField high) (composes.tableField related))
  intro pairs
  exact composes.pure _

theorem loading : holds Stmt limit Parser.loading Parser.loading := by
  rw [loading_eq]
  apply composes.bind (composes.expectWord _ Keyword.noConfusion)
  intro _
  apply composes.look
  · apply Closes.fails
    rw [if_neg Kind.noConfusion]
    exact takes_identifier.bind_pure _
  · intro kind
    split
    · apply composes.weaken
      apply composes.expect rfl
      intro one other alike
      rw [alike.2]
      exact composes.pure _
    · exact composes.bind composes.identifier fun _ => composes.pure _

theorem statementOf (soundExpression : SoundExpression low) (rejects : Rejects high)
    (soundStatement : SoundStatement lower) (relatedExpression : holds Expr (limit + 1) low high)
    (relatedStatement : holds Stmt limit lower higher) :
    holds Stmt (limit + 1) (Parser.statementOf low lower) (Parser.statementOf high higher) := by
  have printing : ∀ kind : Kind, kind.isOrdinary = true → holds Stmt (limit + 1)
      (Parser.expect kind >>= fun _ =>
        Parser.argumentsOf low >>= fun found => Pure.pure (.print found))
      (Parser.expect kind >>= fun _ =>
        Parser.argumentsOf high >>= fun found => Pure.pure (.print found)) := by
    intro kind ordinary
    apply composes.weaken
    apply composes.expectKind ordinary
    exact composes.bind (composes.argumentsOf soundExpression rejects relatedExpression)
      fun _ => composes.pure _
  rw [statementOf_eq, statementOf_eq]
  apply composes.look
  · exact .fails ((consumes_of_soundExpression soundExpression).takes.bind_pure _)
  · intro kind
    unfold statementAt
    split
    · exact composes.assignment relatedExpression
    · exact printing _ rfl
    · exact printing _ rfl
    · exact composes.branching soundExpression soundStatement relatedExpression relatedStatement
    · exact composes.counting soundStatement relatedExpression relatedStatement
    · exact composes.looping soundStatement relatedExpression relatedStatement
    · exact composes.expectKind rfl (composes.pure _)
    · exact composes.expectKind rfl (composes.pure _)
    · exact composes.definition soundStatement relatedStatement
    · exact composes.result relatedExpression rejects
    · exact composes.tableDefinition soundExpression relatedExpression
    · exact composes.loading
    · exact composes.bind relatedExpression fun _ => composes.pure _

end

/-! ### Readers of all depths

One of the readers may nest deeper than the other, and it is enough to compare them where the other may
not nest at all. -/

section

variable (more : Nat) (expressionAtBottom : holds Expr 0 (fail .tooDeep) (Parser.expression more))

include expressionAtBottom

theorem expression (depth : Nat) :
    holds Expr depth (Parser.expression depth) (Parser.expression (more + depth)) := by
  induction depth with
  | zero => exact expressionAtBottom
  | succ depth ih => exact composes.logical (sound_expression depth) (rejects_expression _) ih

theorem statement (statementAtBottom : holds Stmt 0 (fail .tooDeep) (Parser.statement more))
    (depth : Nat) : holds Stmt depth (Parser.statement depth) (Parser.statement (more + depth)) := by
  induction depth with
  | zero => exact statementAtBottom
  | succ depth ih =>
      have expressions := composes.expression more expressionAtBottom (depth + 1)
      exact composes.statementOf (sound_expression _) (rejects_expression _) (sound_statement depth)
        expressions ih

end

/-- What stands behind the last statement is left to the relation. -/
theorem programOf (limit : Nat) {lower higher : Parser Stmt} (sound : SoundStatement lower)
    (last : holds (Option Stmt) limit (Parser.nextStatement .endOfSource lower)
      (Parser.nextStatement .endOfSource higher)) :
    holds Program limit (Parser.programOf lower) (Parser.programOf higher) := by
  apply composes.bind (composes.statementsUntil (consumes_of_soundStatement sound).takes last)
  intro statements
  exact composes.pure _

end Relation.Composes

/-! ### Relations without exceptions -/

/-- The relation holds of the steps, whatever tokens they meet and whatever comes behind them. -/
structure Relation.ComposesFreely (holds : Relation) : Prop where
  weaken {α : Type} {limit : Nat} {low high : Parser α} :
    holds α (limit + 1) low high → holds α limit low high
  pure {α : Type} {limit : Nat} (value : α) : holds α limit (Pure.pure value) (Pure.pure value)
  fail {α : Type} {limit : Nat} {fault : ParseFault} :
    fault ≠ .tooDeep → holds α limit (Parser.fail fault) (Parser.fail fault)
  bind {α β : Type} {limit : Nat} {low high : Parser α} {next otherNext : α → Parser β} :
    holds α limit low high → (∀ value, holds β limit (next value) (otherNext value)) →
      holds β limit (low >>= next) (high >>= otherNext)
  expect {β : Type} {limit : Nat} {next otherNext : Token → Parser β} (kind : Kind) :
    (∀ one other : Token, one.Alike other → holds β limit (next one) (otherNext other)) →
      holds β (limit + 1) (Parser.expect kind >>= next) (Parser.expect kind >>= otherNext)
  look {α : Type} {limit : Nat} {low high : Kind → Parser α} (absent : Option α) :
    (∀ kind, holds α limit (low kind) (high kind)) →
      holds α limit (looking absent low) (looking absent high)
  repeated {σ : Type} {limit : Nat} {low high : σ → Parser (Option σ)} {spentUp : σ → Parser σ} :
    (∀ gathered, holds σ limit (spentUp gathered) (spentUp gathered)) →
    (∀ gathered, holds (Option σ) limit (low gathered) (high gathered)) →
      ∀ first, holds σ limit (repeated low spentUp first) (repeated high spentUp first)

namespace Relation.ComposesFreely

variable {holds : Relation} (free : holds.ComposesFreely)

include free

theorem composes : holds.Composes where
  weaken := free.weaken
  pure := free.pure
  unexpected := free.fail ParseFault.noConfusion
  bind := free.bind
  expect := fun _ goesOn => free.expect _ goesOn
  look := fun absent _ related => free.look absent related
  named := by
    intro limit low high related
    simp only [named, identifier, bind_assoc, pure_bind]
    apply free.expect
    intro one other alike
    rw [alike.2]
    apply free.look
    intro kind
    split
    · exact related _
    · exact free.pure _
  result := by
    intro limit low high related _
    rw [result_eq, result_eq]
    simp only [expectWord, bind_assoc, pure_bind]
    apply free.weaken
    apply free.expect
    intro _ _ _
    apply free.look
    intro kind
    split
    · exact free.pure _
    · exact free.bind related fun _ => free.pure _
  inBlock := by
    intro α limit low high related
    have rest : holds α limit (low >>= fun found => Parser.expect .dedent >>= fun _ => Pure.pure found)
        (high >>= fun found => Parser.expect .dedent >>= fun _ => Pure.pure found) := by
      apply free.bind related
      intro found
      exact free.weaken (free.expect _ fun _ _ _ => free.pure found)
    simp only [inBlock, expectSign, bind_assoc, pure_bind]
    apply free.weaken
    apply free.expect
    intro _ _ _
    exact free.expect _ fun _ _ _ => rest
  repeated := by
    intro σ limit low high spentUp _ lasts related first
    apply free.repeated _ related
    intro gathered
    rcases lasts with rfl | ⟨rfl, _⟩
    · exact free.pure gathered
    · exact free.fail ParseFault.noConfusion

theorem programOf (limit : Nat) {lower higher : Parser Stmt} (sound : SoundStatement lower)
    (related : holds Stmt limit lower higher) :
    holds Program limit (Parser.programOf lower) (Parser.programOf higher) := by
  apply free.composes.programOf limit sound
  rw [nextStatement_eq, nextStatement_eq]
  apply free.look
  intro kind
  split
  · exact free.pure none
  · exact free.bind related fun _ => free.pure _

end Relation.ComposesFreely

end Parser

end IndentScript
