import IndentScript.Proofs.GrammarSoundness

/-!
The loops of the readers, round by round.

A loop goes on until a round finds the token that ends it, or fails; nothing counts its rounds. Here
a loop is given by what one round does, and its run is a relation, so that it could go on for ever.
It does not: a round that goes on has taken a token, whatever the tokens are. So every loop ends after
no more rounds than there are tokens, and it ends as the reader with a budget does. The budget is
never what ends it.
-/

namespace IndentScript

namespace Parser

/-! ### What readers take -/

section

variable {α : Type}

def Consumes (reader : Parser α) : Prop :=
  Sound reader fun _ taken _ => taken ≠ []

theorem Sound.consumes {reader : Parser α} {phrase : α → List Token → List Token → Prop}
    (sound : Sound reader phrase)
    (nonempty : ∀ value taken rest, phrase value taken rest → taken ≠ []) : Consumes reader := by
  intro tokens value rest success
  obtain ⟨taken, split, isPhrase⟩ := sound tokens value rest success
  exact ⟨taken, split, nonempty value taken rest isPhrase⟩

theorem Consumes.takes {reader : Parser α} (consumes : Consumes reader) : Takes reader :=
  Sound.takes consumes fun _ _ _ nonempty => nonempty

end

theorem Consumes.chain {operand : Parser Expr} (consumes : Consumes operand)
    (operator? : Kind → Option Operator) : Consumes (Parser.chain operator? operand) := by
  unfold Consumes at consumes ⊢
  apply sound_chain consumes
  · intro value taken nonempty
    exact nonempty
  · intro left front token operator right back _ _ _
    exact List.append_ne_nil_of_right_ne_nil _ (List.cons_ne_nil _ _)

section

variable {expressions : Parser Expr} {statements : Parser Stmt}

theorem consumes_of_soundExpression (sound : SoundExpression expressions) : Consumes expressions :=
  sound.consumes fun _ _ _ isExpression => isExpression.ne_nil

theorem consumes_of_soundStatement (sound : SoundStatement statements) : Consumes statements :=
  sound.consumes fun _ _ _ isStatement => isStatement.ne_nil

theorem consumes_term (sound : SoundExpression expressions) : Consumes (term expressions) :=
  (sound_term sound).consumes fun _ _ _ isOperand =>
    isOperand.ne_nil (by intro values same; cases same)

theorem consumes_comparison (sound : SoundExpression expressions) : Consumes (comparison expressions) :=
  (consumes_term sound).chain _

theorem takes_statement (depth : Nat) : Takes (statement depth) :=
  (consumes_of_soundStatement (sound_statement depth)).takes

theorem takes_expect (kind : Kind) : Takes (expect kind) := by
  intro tokens value rest success
  obtain ⟨rfl, _⟩ := expect_eq_ok success
  exact Nat.lt_succ_self _

theorem takes_identifier : Takes identifier :=
  (takes_expect _).bind_pure _

theorem Takes.tableField (takes : Takes expressions) : Takes (Parser.tableField expressions) := by
  intro tokens value rest success
  obtain ⟨key, _, rfl, _, afterKey⟩ := expect_step success
  obtain ⟨colon, _, rfl, _, afterColon⟩ := expectSign_step afterKey
  obtain ⟨found, middle, read, afterFound⟩ := bind_eq_ok afterColon
  obtain ⟨_, rfl⟩ := pure_eq_ok afterFound
  have shorter := takes _ _ _ read
  simp only [List.length_cons]
  omega

end

/-! ### Loops -/

section

variable {α σ : Type}

/-- How a loop ends, and how many of its rounds went on before. A round makes something new of what
is gathered so far; where it gives nothing, the loop is over. -/
inductive Rounds (round : σ → Parser (Option σ)) :
    Nat → σ → List Token → Except ParseFailure (σ × List Token) → Prop where
  | over {gathered : σ} {tokens rest : List Token} :
    round gathered tokens = .ok (none, rest) → Rounds round 0 gathered tokens (.ok (gathered, rest))
  | failed {gathered : σ} {tokens : List Token} {failure : ParseFailure} :
    round gathered tokens = .error failure → Rounds round 0 gathered tokens (.error failure)
  | again {count : Nat} {gathered more : σ} {tokens rest : List Token}
      {outcome : Except ParseFailure (σ × List Token)} :
    round gathered tokens = .ok (some more, rest) → Rounds round count more rest outcome →
      Rounds round (count + 1) gathered tokens outcome

/-- The loop ends in the given way, and no more of its rounds go on than there are tokens. -/
def EndsAs (round : σ → Parser (Option σ)) (gathered : σ) (tokens : List Token)
    (outcome : Except ParseFailure (σ × List Token)) : Prop :=
  ∃ count, count ≤ tokens.length ∧ Rounds round count gathered tokens outcome

/-- The reader has taken a token whenever it has found something. -/
def TakesToFind (reader : Parser (Option α)) : Prop :=
  ∀ tokens found rest, reader tokens = .ok (some found, rest) → rest.length < tokens.length

def roundThen (round : σ → Parser (Option σ)) (others : σ → Parser σ) (gathered : σ) : Parser σ := do
  match ← round gathered with
  | none => return gathered
  | some more => others more

/-- A loop with a budget, which has a token for each round. What it does where the budget is spent up
is given. -/
def repeatedWithin (round : σ → Parser (Option σ)) (spentUp : σ → Parser σ) :
    List Token → σ → Parser σ
  | [] => spentUp
  | _ :: budget => roundThen round (repeatedWithin round spentUp budget)

/-- A loop whose budget is the list of the tokens that are left where it starts. -/
def repeated (round : σ → Parser (Option σ)) (spentUp : σ → Parser σ) (first : σ) : Parser σ := do
  let budget ← get
  repeatedWithin round spentUp budget first

/-- One round of a loop with a budget, if the budget is enough for the others. -/
private theorem endsAs_step {round : σ → Parser (Option σ)}
    (takes : ∀ gathered, TakesToFind (round gathered)) {others : σ → Parser σ} {gathered : σ}
    {tokens : List Token}
    (goesOn : ∀ more rest, rest.length < tokens.length → EndsAs round more rest (others more rest)) :
    EndsAs round gathered tokens (roundThen round others gathered tokens) := by
  cases first : round gathered tokens with
  | error failure =>
      rw [roundThen, bind_error first]
      exact ⟨0, Nat.zero_le _, .failed first⟩
  | ok found =>
      obtain ⟨result, rest⟩ := found
      rw [roundThen, bind_ok first]
      cases result with
      | none => exact ⟨0, Nat.zero_le _, .over first⟩
      | some more =>
          have shorter := takes gathered tokens more rest first
          obtain ⟨count, bound, rounds⟩ := goesOn more rest shorter
          exact ⟨count + 1, by omega, .again first rounds⟩

/-- A loop with a budget ends as the loop without one. Where nothing is left of both the budget and
the tokens, it must do what a round does there. -/
theorem repeatedWithin_endsAs {round : σ → Parser (Option σ)}
    (takes : ∀ gathered, TakesToFind (round gathered)) {spentUp : σ → Parser σ}
    (atEnd : ∀ gathered, spentUp gathered [] = roundThen round spentUp gathered [])
    (budget : List Token) {tokens : List Token} (enough : tokens.length ≤ budget.length)
    (gathered : σ) :
    EndsAs round gathered tokens (repeatedWithin round spentUp budget gathered tokens) := by
  induction budget generalizing tokens gathered with
  | nil =>
      obtain rfl := List.length_eq_zero_iff.mp (Nat.le_zero.mp enough)
      rw [repeatedWithin, atEnd]
      apply endsAs_step takes
      intro more rest shorter
      exact absurd shorter (Nat.not_lt_zero _)
  | cons spent budget ih =>
      rw [repeatedWithin]
      apply endsAs_step takes
      intro more rest shorter
      rw [List.length_cons] at enough
      exact ih (by omega) more

/-! ### Loops that gather a list -/

def gathering (item? : Parser (Option α)) (gathered : List α) : Parser (Option (List α)) := do
  match ← item? with
  | none => return none
  | some value => return some (gathered ++ [value])

theorem TakesToFind.gathering {item? : Parser (Option α)} (takes : TakesToFind item?)
    (gathered : List α) : TakesToFind (Parser.gathering item? gathered) := by
  intro tokens more rest success
  obtain ⟨found, middle, read, afterItem⟩ := bind_eq_ok success
  cases found with
  | none => cases afterItem
  | some value =>
      cases afterItem
      exact takes _ _ _ read

/-- A reader with a budget puts each item before the others; the loop puts each behind those it has.
They do the same. -/
private theorem eq_repeatedWithin_gathering {item? : Parser (Option α)}
    {within : List Token → Parser (List α)} {spentUp : List α → Parser (List α)}
    (unfolds : ∀ spent budget, within (spent :: budget) = (do
      match ← item? with
      | none => return []
      | some value =>
        let others ← within budget
        return value :: others))
    (spent : ∀ gathered, (gathered ++ ·) <$> within [] = spentUp gathered) (budget : List Token) :
    within budget = repeatedWithin (gathering item?) spentUp budget [] := by
  have general : ∀ gathered, (gathered ++ ·) <$> within budget =
      repeatedWithin (gathering item?) spentUp budget gathered := by
    induction budget with
    | nil => exact spent
    | cons first budget ih =>
        intro gathered
        rw [unfolds, repeatedWithin, roundThen, gathering, map_bind, bind_assoc]
        apply bind_congr
        intro found
        cases found with
        | none => simp
        | some value => simp [← ih]
  simpa using general []

def nextListed (close : Symbol) (item : Parser α) : Parser (Option α) := do
  let token ← peek
  if token.kind = .symbol close then return none
  let value ← item
  skipComma
  return some value

theorem takesToFind_nextListed (close : Symbol) {item : Parser α} (takes : Takes item) :
    TakesToFind (nextListed close item) := by
  intro tokens value rest success
  obtain ⟨token, others, rfl, atToken⟩ := peek_step success
  by_cases closed : token.kind = .symbol close
  · rw [if_pos closed] at atToken
    cases atToken
  · rw [if_neg closed] at atToken
    obtain ⟨_, _, read, afterItem⟩ := bind_eq_ok atToken
    obtain ⟨_, comma, _, rfl, _, afterComma⟩ := sound_skipComma.step afterItem
    obtain ⟨_, rfl⟩ := pure_eq_ok afterComma
    have shorter := takes _ _ _ read
    rw [List.length_append] at shorter
    omega

theorem listedWithin_eq (close : Symbol) (item : Parser α) (budget : List Token) :
    listedWithin close item budget =
      repeatedWithin (gathering (nextListed close item)) (fun _ => fail .noToken) budget [] := by
  apply eq_repeatedWithin_gathering
  · intro spent budget
    rw [listedWithin, nextListed, bind_assoc]
    apply bind_congr
    intro token
    split
    · rfl
    · simp
  · exact fun _ => rfl

theorem listedWithin_endsAs (close : Symbol) {item : Parser α} (takes : Takes item)
    (tokens : List Token) :
    EndsAs (gathering (nextListed close item)) [] tokens (listedWithin close item tokens tokens) := by
  rw [listedWithin_eq]
  exact repeatedWithin_endsAs (takesToFind_nextListed close takes).gathering (fun _ => rfl) tokens
    (Nat.le_refl _) []

def nextStatement (stop : Kind) (statement : Parser Stmt) : Parser (Option Stmt) := do
  match ← peek? with
  | none => return none
  | some token =>
    if token.kind = stop then return none
    let value ← statement
    return some value

theorem takesToFind_nextStatement (stop : Kind) {statement : Parser Stmt} (takes : Takes statement) :
    TakesToFind (nextStatement stop statement) := by
  intro tokens value rest success
  cases tokens with
  | nil => cases success
  | cons token others =>
      obtain ⟨_, _, looked, atToken⟩ := bind_eq_ok success
      cases looked
      by_cases stopped : token.kind = stop
      · simp only [List.head?_cons, stopped, if_true] at atToken
        cases atToken
      · simp only [List.head?_cons, stopped, if_false] at atToken
        obtain ⟨_, _, read, afterStatement⟩ := bind_eq_ok atToken
        obtain ⟨_, rfl⟩ := pure_eq_ok afterStatement
        exact takes _ _ _ read

theorem statementsWithin_eq (stop : Kind) (statement : Parser Stmt) (budget : List Token) :
    statementsWithin stop statement budget =
      repeatedWithin (gathering (nextStatement stop statement)) pure budget [] := by
  apply eq_repeatedWithin_gathering
  · intro spent budget
    rw [statementsWithin, nextStatement, bind_assoc]
    apply bind_congr
    intro token
    cases token with
    | none => rfl
    | some token =>
        dsimp only
        split
        · rfl
        · simp
  · intro gathered
    rw [statementsWithin, map_pure, List.append_nil]

theorem statementsUntil_endsAs (stop : Kind) {statement : Parser Stmt} (takes : Takes statement)
    (tokens : List Token) :
    EndsAs (gathering (nextStatement stop statement)) [] tokens
      (statementsUntil stop statement tokens) := by
  change EndsAs _ [] tokens (statementsWithin stop statement tokens tokens)
  rw [statementsWithin_eq]
  exact repeatedWithin_endsAs (takesToFind_nextStatement stop takes).gathering (fun _ => rfl) tokens
    (Nat.le_refl _) []

def nextArm (expression : Parser Expr) (statement : Parser Stmt) : Parser (Option (Expr × Block)) := do
  if ← isAt (.keyword .elifWord) then
    advance
    let test ← condition expression
    let found ← body statement
    return some (test, found)
  else return none

theorem takesToFind_nextArm {expressions : Parser Expr} {statements : Parser Stmt}
    (soundExpressions : SoundExpression expressions) (soundStatements : SoundStatement statements) :
    TakesToFind (nextArm expressions statements) := by
  intro tokens value rest success
  rcases isAt_step success with ⟨word, more, rfl, _, atWord⟩ | noWord
  · obtain ⟨_, _, advanced, afterWord⟩ := bind_eq_ok atWord
    cases advanced
    obtain ⟨test, front, _, split, _, afterTest⟩ := (sound_condition soundExpressions).step afterWord
    obtain ⟨found, back, _, rfl, _, afterFound⟩ := (sound_body soundStatements).step afterTest
    obtain ⟨_, rfl⟩ := pure_eq_ok afterFound
    change more = _ at split
    rw [split, List.length_cons, List.length_append, List.length_append]
    omega
  · cases noWord

theorem armsWithin_eq (expressions : Parser Expr) (statements : Parser Stmt) (budget : List Token) :
    armsWithin expressions statements budget =
      repeatedWithin (gathering (nextArm expressions statements)) pure budget [] := by
  apply eq_repeatedWithin_gathering
  · intro spent budget
    rw [armsWithin, nextArm, bind_assoc]
    apply bind_congr
    intro there
    cases there with
    | false => rfl
    | true => simp
  · intro gathered
    rw [armsWithin, map_pure, List.append_nil]

theorem armsWithin_endsAs {expressions : Parser Expr} {statements : Parser Stmt}
    (soundExpressions : SoundExpression expressions) (soundStatements : SoundStatement statements)
    (tokens : List Token) :
    EndsAs (gathering (nextArm expressions statements)) [] tokens
      (armsWithin expressions statements tokens tokens) := by
  rw [armsWithin_eq]
  exact repeatedWithin_endsAs (takesToFind_nextArm soundExpressions soundStatements).gathering
    (fun _ => rfl) tokens (Nat.le_refl _) []

/-! ### Loops that join operands -/

/-- A round of an operator chain: an operator and an operand, which become one operand with what
is there so far. -/
def joining (operator? : Kind → Option Operator) (operand : Parser Expr) (left : Expr) :
    Parser (Option Expr) := do
  let token ← peek?
  match token.bind fun token => operator? token.kind with
  | none => return none
  | some operator =>
    advance
    let right ← operand
    return some (.binary left operator right)

theorem takesToFind_joining (operator? : Kind → Option Operator) {operand : Parser Expr}
    (takes : Takes operand) (left : Expr) : TakesToFind (joining operator? operand left) := by
  intro tokens value rest success
  obtain ⟨_, _, looked, atToken⟩ := bind_eq_ok success
  cases looked
  cases known : tokens.head?.bind fun token => operator? token.kind with
  | none =>
      rw [known] at atToken
      cases atToken
  | some operator =>
      rw [known] at atToken
      obtain ⟨_, _, advanced, afterToken⟩ := bind_eq_ok atToken
      cases advanced
      obtain ⟨_, _, read, afterOperand⟩ := bind_eq_ok afterToken
      obtain ⟨_, rfl⟩ := pure_eq_ok afterOperand
      have shorter := takes _ _ _ read
      rw [List.length_drop] at shorter
      omega

theorem chainWithin_eq (operator? : Kind → Option Operator) (operand : Parser Expr) (left : Expr)
    (budget : List Token) :
    chainWithin operator? operand left budget =
      repeatedWithin (joining operator? operand) pure budget left := by
  induction budget generalizing left with
  | nil => rfl
  | cons spent budget ih =>
      rw [chainWithin, repeatedWithin, roundThen, joining, bind_assoc]
      apply bind_congr
      intro token
      cases token.bind fun token => operator? token.kind with
      | none => rfl
      | some operator => simp [ih]

theorem chainWithin_endsAs (operator? : Kind → Option Operator) {operand : Parser Expr}
    (takes : Takes operand) (first : Expr) (tokens : List Token) :
    EndsAs (joining operator? operand) first tokens
      (chainWithin operator? operand first tokens tokens) := by
  rw [chainWithin_eq]
  exact repeatedWithin_endsAs (takesToFind_joining operator? takes) (fun _ => rfl) tokens
    (Nat.le_refl _) first

end

end Parser

end IndentScript
