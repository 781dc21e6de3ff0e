import IndentScript.Proofs.LoopRounds

/-!
Readers in terms of a few steps. A reader looks at the kind of the current token and goes on as this
says, takes a token that must be there, or repeats what it does as long as a round finds something.
Every reader that looks at a token and then takes it is the same as one that goes on by the kind and
expects the token.
-/

namespace IndentScript

namespace Parser

section

variable {α β σ : Type}

/-- Goes on as the kind of the current token says. Without a token the reader has the value `absent`,
or it fails. -/
def looking (absent : Option α) (reader : Kind → Parser α) : Parser α
  | [] =>
    match absent with
    | none => .error ⟨.noToken, []⟩
    | some value => .ok (value, [])
  | token :: rest => reader token.kind (token :: rest)

/-- A name, and what `reader` makes of it if an opening parenthesis follows. -/
def named (reader : String → Parser Expr) : Parser Expr := do
  let name ← identifier
  looking (some (.variable name)) fun kind =>
    if kind = .symbol .openParen then reader name else pure (.variable name)

def inBlock (reader : Parser α) : Parser α := do
  expectSign .colon
  let _ ← expect .indent
  let found ← reader
  let _ ← expect .dedent
  return found

theorem expect_of_kind {kind : Kind} {token : Token} (same : token.kind = kind) (rest : List Token) :
    expect kind (token :: rest) = .ok (token, rest) :=
  if_pos same

theorem expect_of_ne {kind : Kind} {token : Token} (different : token.kind ≠ kind)
    (rest : List Token) : expect kind (token :: rest) = .error ⟨.expected kind, token :: rest⟩ :=
  if_neg different

/-- Where a token of the kind is known to be there, to take it is to take the current token. -/
theorem advance_bind {kind : Kind} {token : Token} (same : token.kind = kind) (rest : List Token)
    (next : Parser β) :
    (advance >>= fun _ => next) (token :: rest) = (expect kind >>= fun _ => next) (token :: rest) := by
  rw [bind_ok (expect_of_kind same rest)]
  rfl

theorem peek_bind (next : Token → Parser α) (reader : Kind → Parser α)
    (same : ∀ token rest, next token (token :: rest) = reader token.kind (token :: rest)) :
    peek >>= next = looking none reader := by
  funext tokens
  cases tokens with
  | nil => rfl
  | cons token rest => exact same token rest

theorem peek?_bind (next : Option Token → Parser α) (value : α) (reader : Kind → Parser α)
    (absent : next none = pure value)
    (same : ∀ token rest, next (some token) (token :: rest) = reader token.kind (token :: rest)) :
    peek? >>= next = looking (some value) reader := by
  funext tokens
  cases tokens with
  | nil => exact congrFun absent []
  | cons token rest => exact same token rest

theorem isAt_bind (kind : Kind) (next : Parser α) (value : α) :
    (isAt kind >>= fun there => if there then next else pure value) =
      looking (some value) fun found => if found = kind then next else pure value := by
  funext tokens
  cases tokens with
  | nil => rfl
  | cons token rest =>
      have looks : isAt kind (token :: rest) = .ok (decide (token.kind = kind), token :: rest) := rfl
      rw [bind_ok looks, looking]
      simp only [decide_eq_true_eq]

theorem isAt_advance_bind (kind : Kind) (next : Parser α) (value : α) :
    (isAt kind >>= fun there => if there then advance >>= fun _ => next else pure value) =
      looking (some value) fun found =>
        if found = kind then expect kind >>= fun _ => next else pure value := by
  rw [isAt_bind]
  funext tokens
  cases tokens with
  | nil => rfl
  | cons token rest =>
      rw [looking, looking]
      by_cases same : token.kind = kind
      · rw [if_pos same, if_pos same]
        exact advance_bind same rest next
      · rw [if_neg same, if_neg same]

theorem skipComma_eq :
    skipComma = looking none fun kind =>
      if kind = .symbol .comma then expect (.symbol .comma) >>= fun _ => pure () else pure () := by
  apply peek_bind
  intro token rest
  by_cases comma : token.kind = .symbol .comma
  · rw [if_pos comma, if_pos comma]
    exact advance_bind comma rest (pure ())
  · rw [if_neg comma, if_neg comma]

theorem nextListed_eq (close : Symbol) (item : Parser α) :
    nextListed close item = looking none fun kind =>
      if kind = .symbol close then pure none
      else item >>= fun value => skipComma >>= fun _ => pure (some value) :=
  peek_bind _ _ fun _ _ => rfl

theorem nextStatement_eq (stop : Kind) (statement : Parser Stmt) :
    nextStatement stop statement = looking (some none) fun kind =>
      if kind = stop then pure none else statement >>= fun value => pure (some value) :=
  peek?_bind _ _ _ rfl fun _ _ => rfl

theorem nextArm_eq (expressions : Parser Expr) (statements : Parser Stmt) :
    nextArm expressions statements = looking (some none) fun kind =>
      if kind = .keyword .elifWord then expect (.keyword .elifWord) >>= fun _ =>
        condition expressions >>= fun test => body statements >>= fun found =>
          pure (some (test, found))
      else pure none :=
  isAt_advance_bind _ _ _

theorem joining_eq (operator? : Kind → Option Operator) (operand : Parser Expr) (left : Expr) :
    joining operator? operand left = looking (some none) fun kind =>
      match operator? kind with
      | none => pure none
      | some operator => expect kind >>= fun _ => operand >>= fun right =>
        pure (some (.binary left operator right)) := by
  refine peek?_bind _ _ _ rfl ?_
  intro token rest
  simp only [Option.bind_some]
  cases operator? token.kind with
  | none => rfl
  | some operator => exact advance_bind rfl rest _

theorem listed_eq (close : Symbol) (item : Parser α) :
    listed close item =
      repeated (gathering (nextListed close item)) (fun _ => fail .noToken) [] >>= fun found =>
        expectSign close >>= fun _ => pure found := by
  rw [listed, repeated, bind_assoc]
  apply bind_congr
  intro budget
  rw [listedWithin_eq]

theorem statementsUntil_eq (stop : Kind) (statement : Parser Stmt) :
    statementsUntil stop statement = repeated (gathering (nextStatement stop statement)) pure [] :=
  bind_congr fun _ => statementsWithin_eq stop statement _

theorem chain_eq (operator? : Kind → Option Operator) (operand : Parser Expr) :
    chain operator? operand =
      operand >>= fun left => repeated (joining operator? operand) pure left :=
  bind_congr fun _ => bind_congr fun _ => chainWithin_eq operator? operand _ _

end

def termAt (expression : Parser Expr) : Kind → Parser Expr
  | .number => expect .number >>= fun token => pure (.literal (literalOf token))
  | .string => expect .string >>= fun token => pure (.literal (literalOf token))
  | .identifier => named (call expression)
  | .keyword .trueWord => expect (.keyword .trueWord) >>= fun token =>
    pure (.literal (.bool (token.payload = .text "TRUE")))
  | .keyword .falseWord => expect (.keyword .falseWord) >>= fun token =>
    pure (.literal (.bool (token.payload = .text "TRUE")))
  | .symbol .openParen => condition expression
  | _ => fail .expressionExpected

theorem term_eq (expression : Parser Expr) : term expression = looking none (termAt expression) := by
  apply peek_bind
  rintro ⟨kind, payload, line⟩ rest
  cases kind with
  | identifier =>
      have taken : identifier (⟨.identifier, payload, line⟩ :: rest) = .ok (payload.asText, rest) := rfl
      rw [termAt, named, bind_ok taken, ← isAt_bind]
      rfl
  | keyword word => cases word <;> rfl
  | symbol sign => cases sign <;> rfl
  | _ => rfl

def statementAt (expression : Parser Expr) (statement : Parser Stmt) : Kind → Parser Stmt
  | .keyword .localWord => assignment expression
  | .keyword .printlineWord => expect (.keyword .printlineWord) >>= fun _ =>
    argumentsOf expression >>= fun found => pure (.print found)
  | .keyword .printlinefWord => expect (.keyword .printlinefWord) >>= fun _ =>
    argumentsOf expression >>= fun found => pure (.print found)
  | .keyword .ifWord => branching expression statement
  | .keyword .forWord => counting expression statement
  | .keyword .whileWord => looping expression statement
  | .keyword .breakWord => expect (.keyword .breakWord) >>= fun _ => pure .leave
  | .keyword .continueWord => expect (.keyword .continueWord) >>= fun _ => pure .next
  | .keyword .funcWord => definition statement
  | .keyword .returnWord => result expression
  | .keyword .tableWord => tableDefinition expression
  | .keyword .importWord => loading
  | _ => expression >>= fun value => pure (.evaluate value)

theorem statementOf_eq (expression : Parser Expr) (statement : Parser Stmt) :
    statementOf expression statement = looking none (statementAt expression statement) := by
  apply peek_bind
  rintro ⟨kind, payload, line⟩ rest
  cases kind with
  | keyword word => cases word <;> rfl
  | _ => rfl

theorem branching_eq (expression : Parser Expr) (statement : Parser Stmt) :
    branching expression statement = expectWord .ifWord >>= fun _ =>
      condition expression >>= fun test => body statement >>= fun found =>
        repeated (gathering (nextArm expression statement)) pure [] >>= fun arms =>
          looking (some (.branch test found arms none)) fun kind =>
            if kind = .keyword .elseWord then expect (.keyword .elseWord) >>= fun _ =>
              body statement >>= fun otherwise => pure (.branch test found arms (some otherwise))
            else pure (.branch test found arms none) := by
  apply bind_congr
  intro _
  apply bind_congr
  intro test
  apply bind_congr
  intro found
  rw [repeated, bind_assoc]
  apply bind_congr
  intro budget
  rw [armsWithin_eq]
  apply bind_congr
  intro arms
  exact isAt_advance_bind _ _ _

theorem loading_eq :
    loading = expectWord .importWord >>= fun _ => looking none fun kind =>
      if kind = .string then expect .string >>= fun token => pure (.load token.payload.asText)
      else identifier >>= fun name => pure (.load name) := by
  apply bind_congr
  intro _
  apply peek_bind
  intro token rest
  by_cases text : token.kind = .string
  · rw [if_pos text, if_pos text, bind_ok (expect_of_kind text rest)]
    rfl
  · rw [if_neg text, if_neg text]

theorem result_eq (expression : Parser Expr) :
    result expression = expectWord .returnWord >>= fun _ => looking (some (.result none)) fun kind =>
      if kind = .endOfSource then pure (.result none)
      else expression >>= fun value => pure (.result (some value)) :=
  bind_congr fun _ => peek?_bind _ _ _ rfl fun _ _ => rfl

def programOf (statement : Parser Stmt) : Parser Program := do
  let statements ← statementsUntil .endOfSource statement
  return ⟨statements⟩

theorem body_eq (statement : Parser Stmt) :
    body statement = inBlock (statementsUntil .dedent statement) :=
  rfl

end Parser

end IndentScript
