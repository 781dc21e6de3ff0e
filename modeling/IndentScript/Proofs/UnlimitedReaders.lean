import IndentScript.Proofs.ReaderRules

/-!
Readers that may nest as deep as the tokens do.

An expression or a statement inside another one is read only after a token of the outer one has been
taken. So the number of tokens that are left bounds how deep a reading can get, on every token list:
the readers that nest to a limit do the same as readers without one, except that they may be too deep,
and this only on lists with at least as many tokens as the limit.

The readers without a limit call themselves for the parts of a phrase. Their two equations have
exactly one solution.
-/

namespace IndentScript

namespace Parser

section

variable {α β σ : Type}

/-- How two readings of the same tokens end: alike, or the first is too deep where `deep` allows
that. -/
inductive Agrees (deep : Prop) (tokens : List Token) (low high : Parser α) : Prop where
  | success {value : α} {rest : List Token} (suffix : rest <:+ tokens)
    (ends : low tokens = .ok (value, rest)) (otherEnds : high tokens = .ok (value, rest))
  | failure {failure : ParseFailure} (shallow : failure.fault ≠ .tooDeep)
    (ends : low tokens = .error failure) (otherEnds : high tokens = .error failure)
  | tooDeep {rest : List Token} (isDeep : deep) (ends : low tokens = .error ⟨.tooDeep, rest⟩)

/-- The first reader does as the second, or it is too deep, on lists of at least the given length
only. -/
def Approximates (limit : Nat) (low high : Parser α) : Prop :=
  ∀ tokens, Agrees (limit ≤ tokens.length) tokens low high

/-! ### Steps -/

section

variable {deep : Prop} {tokens : List Token} {limit : Nat} {low high : Parser α}

theorem Agrees.mono {other : Prop} (agrees : Agrees deep tokens low high) (implies : deep → other) :
    Agrees other tokens low high := by
  cases agrees with
  | success suffix ends otherEnds => exact .success suffix ends otherEnds
  | failure shallow ends otherEnds => exact .failure shallow ends otherEnds
  | tooDeep isDeep ends => exact .tooDeep (implies isDeep) ends

/-- After some tokens are taken alike, the readings go on with what is left. -/
theorem Agrees.after {left : List Token} {next otherNext : Parser α}
    (agrees : Agrees deep left next otherNext) (suffix : left <:+ tokens)
    (same : low tokens = next left) (otherSame : high tokens = otherNext left) :
    Agrees deep tokens low high := by
  cases agrees with
  | success nextSuffix ends otherEnds =>
      exact .success (nextSuffix.trans suffix) (same.trans ends) (otherSame.trans otherEnds)
  | failure shallow ends otherEnds =>
      exact .failure shallow (same.trans ends) (otherSame.trans otherEnds)
  | tooDeep isDeep ends => exact .tooDeep isDeep (same.trans ends)

theorem Agrees.bind {next otherNext : α → Parser β} (agrees : Agrees deep tokens low high)
    (goesOn : ∀ value rest, rest <:+ tokens → Agrees deep rest (next value) (otherNext value)) :
    Agrees deep tokens (low >>= next) (high >>= otherNext) := by
  cases agrees with
  | success suffix ends otherEnds =>
      exact (goesOn _ _ suffix).after suffix (bind_ok ends next) (bind_ok otherEnds otherNext)
  | failure shallow ends otherEnds =>
      exact .failure shallow (bind_error ends next) (bind_error otherEnds otherNext)
  | tooDeep isDeep ends => exact .tooDeep isDeep (bind_error ends next)

theorem Approximates.bind {next otherNext : α → Parser β} (approximates : Approximates limit low high)
    (goesOn : ∀ value, Approximates limit (next value) (otherNext value)) :
    Approximates limit (low >>= next) (high >>= otherNext) := by
  intro tokens
  apply (approximates tokens).bind
  intro value rest suffix
  exact (goesOn value rest).mono fun long => Nat.le_trans long suffix.length_le

/-- On shorter lists the readers are the same. -/
theorem Approximates.eq_of_length_lt (approximates : Approximates limit low high)
    (short : tokens.length < limit) : low tokens = high tokens := by
  cases approximates tokens with
  | success _ ends otherEnds => exact ends.trans otherEnds.symm
  | failure _ ends otherEnds => exact ends.trans otherEnds.symm
  | tooDeep isDeep _ => exact absurd isDeep (Nat.not_le_of_lt short)

end

section

variable {limit : Nat}

theorem approximates_pure (value : α) : Approximates limit (pure value) (pure value) :=
  fun _ => .success List.suffix_rfl rfl rfl

theorem approximates_fail {fault : ParseFault} (shallow : fault ≠ .tooDeep) :
    Approximates limit (fail fault : Parser α) (fail fault) :=
  fun _ => .failure shallow rfl rfl

/-- Behind a token that must be there, one fewer is left. -/
theorem approximates_expect (kind : Kind) {next otherNext : Token → Parser β}
    (goesOn : ∀ token, Approximates limit (next token) (otherNext token)) :
    Approximates (limit + 1) (expect kind >>= next) (expect kind >>= otherNext) := by
  intro tokens
  cases tokens with
  | nil => exact .failure ParseFault.noConfusion rfl rfl
  | cons token rest =>
      by_cases same : token.kind = kind
      · have read := expect_of_kind same rest
        have agrees := (goesOn token rest).mono fun long => Nat.succ_le_succ long
        exact agrees.after (List.suffix_cons token rest) (bind_ok read _) (bind_ok read _)
      · have read := expect_of_ne same rest
        exact .failure ParseFault.noConfusion (bind_error read _) (bind_error read _)

theorem approximates_looking (absent : Option α) {low high : Kind → Parser α}
    (approximates : ∀ kind, Approximates limit (low kind) (high kind)) :
    Approximates limit (looking absent low) (looking absent high) := by
  intro tokens
  cases tokens with
  | nil =>
      cases absent with
      | none => exact .failure ParseFault.noConfusion rfl rfl
      | some value => exact .success List.suffix_rfl rfl rfl
  | cons token rest =>
      exact (approximates token.kind (token :: rest)).after List.suffix_rfl rfl rfl

theorem approximates_repeatedWithin {low high : σ → Parser (Option σ)} {spentUp : σ → Parser σ}
    (ends : ∀ gathered, Approximates limit (spentUp gathered) (spentUp gathered))
    (approximates : ∀ gathered, Approximates limit (low gathered) (high gathered))
    (budget : List Token) (gathered : σ) :
    Approximates limit (repeatedWithin low spentUp budget gathered)
      (repeatedWithin high spentUp budget gathered) := by
  induction budget generalizing gathered with
  | nil => exact ends gathered
  | cons spent budget ih =>
      apply (approximates gathered).bind
      intro found
      cases found with
      | none => exact approximates_pure gathered
      | some more => exact ih more

end

theorem approximates_composesFreely :
    Relation.ComposesFreely fun _ limit low high => Approximates limit low high where
  weaken := fun approximates tokens => (approximates tokens).mono Nat.le_of_succ_le
  pure := approximates_pure
  fail := approximates_fail
  bind := Approximates.bind
  expect := fun kind goesOn => approximates_expect kind fun token => goesOn token token ⟨rfl, rfl⟩
  look := fun absent approximates => approximates_looking absent approximates
  repeated := fun ends approximates first tokens =>
    (approximates_repeatedWithin ends approximates tokens first tokens).after List.suffix_rfl rfl rfl

theorem approximates_composes : Relation.Composes fun _ limit low high => Approximates limit low high :=
  approximates_composesFreely.composes

/-! ### No limit -/

/-- Readers for expressions and for statements that call themselves for the parts of a phrase. -/
structure Recursive (expressions : Parser Expr) (statements : Parser Stmt) : Prop where
  expressions_eq : expressions = logical expressions
  statements_eq : statements = statementOf expressions statements

/-- Reads to the depth that is enough for all the tokens that are left. -/
def unlimited (readers : Nat → Parser α) : Parser α := fun tokens =>
  readers (tokens.length + 1) tokens

theorem sound_unlimited {readers : Nat → Parser α} {phrase : α → List Token → List Token → Prop}
    (sound : ∀ depth, Sound (readers depth) phrase) : Sound (unlimited readers) phrase :=
  fun tokens => sound (tokens.length + 1) tokens

theorem approximates_unlimited {readers : Nat → Parser α}
    (grows : ∀ depth deeper, depth ≤ deeper →
      Approximates depth (readers depth) (readers deeper)) (depth : Nat) :
    Approximates depth (readers depth) (unlimited readers) := by
  intro tokens
  -- Without a limit the depth is the number of tokens and one more. Of it and the given depth, the
  -- lower one is compared with the other.
  rcases Nat.lt_or_ge tokens.length depth with short | long
  · have enough := grows (tokens.length + 1) depth short
    cases enough tokens with
    | success suffix ends otherEnds => exact .success suffix otherEnds ends
    | failure shallow ends otherEnds => exact .failure shallow otherEnds ends
    | tooDeep isDeep _ => exact absurd isDeep (Nat.not_succ_le_self _)
  · exact (grows depth (tokens.length + 1) (Nat.le_succ_of_le long) tokens).after
      List.suffix_rfl rfl rfl

theorem approximates_zero {low high : Parser α} (fails : low = fail .tooDeep) :
    Approximates 0 low high := by
  intro tokens
  rw [fails]
  exact .tooDeep (Nat.zero_le _) rfl

theorem approximates_expression (depth deeper : Nat) (le : depth ≤ deeper) :
    Approximates depth (expression depth) (expression deeper) := by
  obtain ⟨more, rfl⟩ := Nat.exists_eq_add_of_le' le
  exact approximates_composes.expression more (approximates_zero rfl) depth

theorem approximates_statement (depth deeper : Nat) (le : depth ≤ deeper) :
    Approximates depth (statement depth) (statement deeper) := by
  obtain ⟨more, rfl⟩ := Nat.exists_eq_add_of_le' le
  exact approximates_composes.statement more (approximates_zero rfl) (approximates_zero rfl) depth

theorem rejects_unlimited : Rejects (unlimited expression) :=
  ⟨.expressionExpected, fun token rest known => ⟨token :: rest, logical_fails _ known rest⟩⟩

theorem recursive_unlimited : Recursive (unlimited expression) (unlimited statement) where
  expressions_eq := by
    funext tokens
    have expressions := approximates_unlimited approximates_expression tokens.length
    have next := approximates_composes.logical (sound_expression _) rejects_unlimited expressions
    change logical (expression tokens.length) tokens = _
    exact Approximates.eq_of_length_lt next (Nat.lt_succ_self _)
  statements_eq := by
    funext tokens
    have expressions := approximates_unlimited approximates_expression (tokens.length + 1)
    have statements := approximates_unlimited approximates_statement tokens.length
    have next := approximates_composes.statementOf (sound_expression _) rejects_unlimited
      (sound_statement _) expressions statements
    change statementOf (expression (tokens.length + 1)) (statement tokens.length) tokens = _
    exact Approximates.eq_of_length_lt next (Nat.lt_succ_self _)

/-- All readers that call themselves are approximated by the same readers with limits. -/
theorem Recursive.approximated {expressions : Parser Expr} {statements : Parser Stmt}
    (recursive : Recursive expressions statements) (depth : Nat) :
    Approximates depth (expression depth) expressions ∧
      Approximates depth (statement depth) statements := by
  have rejects : Rejects expressions := by
    rw [recursive.expressions_eq]
    exact rejects_logical expressions
  induction depth with
  | zero => exact ⟨approximates_zero rfl, approximates_zero rfl⟩
  | succ depth ih =>
      have expressionsNext : Approximates (depth + 1) (expression (depth + 1)) expressions := by
        have next := approximates_composes.logical (sound_expression depth) rejects ih.1
        rwa [← recursive.expressions_eq] at next
      refine ⟨expressionsNext, ?_⟩
      rw [recursive.statements_eq]
      exact approximates_composes.statementOf (sound_expression _) rejects (sound_statement depth)
        expressionsNext ih.2

theorem recursive_iff_eq_unlimited {expressions : Parser Expr} {statements : Parser Stmt} :
    Recursive expressions statements ↔
      expressions = unlimited expression ∧ statements = unlimited statement := by
  constructor
  · intro recursive
    constructor
    · funext tokens
      exact ((recursive.approximated _).1.eq_of_length_lt (Nat.lt_succ_self _)).symm
    · funext tokens
      exact ((recursive.approximated _).2.eq_of_length_lt (Nat.lt_succ_self _)).symm
  · rintro ⟨rfl, rfl⟩
    exact recursive_unlimited

theorem approximates_program (depth : Nat) :
    Approximates depth (program depth) (programOf (unlimited statement)) :=
  approximates_composesFreely.programOf depth (sound_statement depth)
    (approximates_unlimited approximates_statement depth)

end

end Parser

def parseUnlimited (tokens : List Token) : Except ParseFailure Program :=
  ((Parser.programOf (Parser.unlimited Parser.statement)).start tokens).map Prod.fst

/-- A program is read as without a limit, unless it is too deep for the limit. -/
theorem parseWithin_eq_parseUnlimited_or_tooDeep (depth : Nat) (tokens : List Token) :
    parseWithin depth tokens = parseUnlimited tokens ∨
      depth ≤ tokens.length ∧ ∃ rest, parseWithin depth tokens = .error ⟨.tooDeep, rest⟩ := by
  cases tokens with
  | nil => exact .inl rfl
  | cons token others =>
      have nonempty := List.cons_ne_nil token others
      rw [parseWithin_eq_map nonempty, parseUnlimited, Parser.start_of_ne_nil _ nonempty]
      cases Parser.approximates_program depth (token :: others) with
      | success _ ends otherEnds =>
          left
          rw [ends, otherEnds]
      | failure _ ends otherEnds =>
          left
          rw [ends, otherEnds]
      | @tooDeep rest isDeep ends =>
          right
          rw [ends]
          exact ⟨isDeep, rest, rfl⟩

theorem parseUnlimited_ne_tooDeep (tokens rest : List Token) :
    parseUnlimited tokens ≠ .error ⟨.tooDeep, rest⟩ := by
  intro fails
  cases tokens with
  | nil => cases fails
  | cons token others =>
      rw [parseUnlimited, Parser.start_of_ne_nil _ (List.cons_ne_nil token others)] at fails
      -- A limit above the number of tokens is never met, and without one the reading is the same.
      cases Parser.approximates_program ((token :: others).length + 1) (token :: others) with
      | success _ _ otherEnds =>
          rw [otherEnds] at fails
          cases fails
      | failure shallow _ otherEnds =>
          rw [otherEnds] at fails
          cases fails
          exact shallow rfl
      | tooDeep isDeep _ => exact Nat.not_succ_le_self _ isDeep

end IndentScript
