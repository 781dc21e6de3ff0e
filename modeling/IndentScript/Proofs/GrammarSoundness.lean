import IndentScript.Proofs.Grammar

/-!
Readers take no tokens but those of the phrase they return: a token list that is read with success
is, up to the end of the source, a list of the grammar for the program that was read.

Every reader is opened once, step by step: a step that succeeds has taken tokens of its own phrase
and has left the others to the next step.
-/

namespace IndentScript

open Grammar

namespace Parser

section

variable {α β : Type}

/-- Whenever the reader succeeds, what it has taken stands for its value before what it has
left. -/
def Sound (reader : Parser α) (phrase : α → List Token → List Token → Prop) : Prop :=
  ∀ tokens value rest, reader tokens = .ok (value, rest) →
    ∃ taken, tokens = taken ++ rest ∧ phrase value taken rest

/-! ### Steps -/

theorem bind_eq_ok {first : Parser α} {next : α → Parser β} {tokens rest : List Token} {value : β}
    (success : (first >>= next) tokens = .ok (value, rest)) :
    ∃ found middle, first tokens = .ok (found, middle) ∧ next found middle = .ok (value, rest) := by
  change Except.bind (first tokens) (fun (found, middle) => next found middle) = _ at success
  cases start : first tokens with
  | error failure =>
      rw [start] at success
      cases success
  | ok found =>
      rw [start] at success
      exact ⟨found.1, found.2, rfl, success⟩

theorem bind_ok {first : Parser α} {tokens rest : List Token} {value : α}
    (ends : first tokens = .ok (value, rest)) (next : α → Parser β) :
    (first >>= next) tokens = next value rest := by
  change Except.bind (first tokens) (fun (found, middle) => next found middle) = _
  rw [ends]
  rfl

theorem bind_error {first : Parser α} {tokens : List Token} {failure : ParseFailure}
    (ends : first tokens = .error failure) (next : α → Parser β) :
    (first >>= next) tokens = .error failure := by
  change Except.bind (first tokens) (fun (found, middle) => next found middle) = _
  rw [ends]
  rfl

theorem pure_eq_ok {found value : α} {tokens rest : List Token}
    (success : (pure found : Parser α) tokens = .ok (value, rest)) :
    found = value ∧ tokens = rest := by
  cases success
  exact ⟨rfl, rfl⟩

theorem Sound.step {first : Parser α} {phrase : α → List Token → List Token → Prop}
    (sound : Sound first phrase) {next : α → Parser β} {tokens rest : List Token} {value : β}
    (success : (first >>= next) tokens = .ok (value, rest)) :
    ∃ found taken middle, tokens = taken ++ middle ∧ phrase found taken middle ∧
      next found middle = .ok (value, rest) := by
  obtain ⟨found, middle, start, success⟩ := bind_eq_ok success
  obtain ⟨taken, split, isPhrase⟩ := sound tokens found middle start
  exact ⟨found, taken, middle, split, isPhrase, success⟩

/-- The reader takes a token whenever it succeeds. -/
def Takes (reader : Parser α) : Prop :=
  ∀ tokens value rest, reader tokens = .ok (value, rest) → rest.length < tokens.length

theorem Sound.takes {reader : Parser α} {phrase : α → List Token → List Token → Prop}
    (sound : Sound reader phrase)
    (nonempty : ∀ value taken rest, phrase value taken rest → taken ≠ []) : Takes reader := by
  intro tokens value rest success
  obtain ⟨taken, split, isValue⟩ := sound tokens value rest success
  have some := List.length_pos_iff.mpr (nonempty value taken rest isValue)
  have lengths := congrArg List.length split
  rw [List.length_append] at lengths
  omega

theorem Takes.bind_pure {reader : Parser α} (takes : Takes reader) (result : α → β) :
    Takes (reader >>= fun value => pure (result value)) := by
  intro tokens value rest success
  obtain ⟨_, _, read, afterValue⟩ := bind_eq_ok success
  obtain ⟨_, rfl⟩ := pure_eq_ok afterValue
  exact takes _ _ _ read

theorem expect_eq_ok {kind : Kind} {tokens rest : List Token} {found : Token}
    (success : expect kind tokens = .ok (found, rest)) :
    tokens = found :: rest ∧ found.kind = kind := by
  cases tokens with
  | nil => cases success
  | cons token more =>
      by_cases same : token.kind = kind
      · rw [expect, if_pos same] at success
        cases success
        exact ⟨rfl, same⟩
      · rw [expect, if_neg same] at success
        cases success

theorem expect_step {kind : Kind} {next : Token → Parser β} {tokens rest : List Token} {value : β}
    (success : (expect kind >>= next) tokens = .ok (value, rest)) :
    ∃ token middle, tokens = token :: middle ∧ token.kind = kind ∧
      next token middle = .ok (value, rest) := by
  obtain ⟨token, middle, start, success⟩ := bind_eq_ok success
  obtain ⟨split, same⟩ := expect_eq_ok start
  exact ⟨token, middle, split, same, success⟩

theorem expectWord_step {word : Keyword} {next : Unit → Parser β} {tokens rest : List Token}
    {value : β} (success : (expectWord word >>= next) tokens = .ok (value, rest)) :
    ∃ token middle, tokens = token :: middle ∧ token.kind = .keyword word ∧
      next () middle = .ok (value, rest) := by
  obtain ⟨_, middle, start, success⟩ := bind_eq_ok success
  obtain ⟨token, _, split, same, stop⟩ := expect_step start
  obtain ⟨_, rfl⟩ := pure_eq_ok stop
  exact ⟨token, _, split, same, success⟩

theorem expectSign_step {sign : Symbol} {next : Unit → Parser β} {tokens rest : List Token}
    {value : β} (success : (expectSign sign >>= next) tokens = .ok (value, rest)) :
    ∃ token middle, tokens = token :: middle ∧ token.kind = .symbol sign ∧
      next () middle = .ok (value, rest) := by
  obtain ⟨_, middle, start, success⟩ := bind_eq_ok success
  obtain ⟨token, _, split, same, stop⟩ := expect_step start
  obtain ⟨_, rfl⟩ := pure_eq_ok stop
  exact ⟨token, _, split, same, success⟩

theorem identifier_step {next : String → Parser β} {tokens rest : List Token} {value : β}
    (success : (identifier >>= next) tokens = .ok (value, rest)) :
    ∃ token middle, tokens = token :: middle ∧ token.kind = .identifier ∧
      next token.payload.asText middle = .ok (value, rest) := by
  obtain ⟨_, middle, start, success⟩ := bind_eq_ok success
  obtain ⟨token, _, split, same, stop⟩ := expect_step start
  obtain ⟨rfl, rfl⟩ := pure_eq_ok stop
  exact ⟨token, _, split, same, success⟩

theorem peek_step {next : Token → Parser β} {tokens rest : List Token} {value : β}
    (success : (peek >>= next) tokens = .ok (value, rest)) :
    ∃ token more, tokens = token :: more ∧ next token (token :: more) = .ok (value, rest) := by
  cases tokens with
  | nil => cases success
  | cons token more => exact ⟨token, more, rfl, success⟩

/-- A look at the kind of the current token takes nothing. -/
theorem isAt_step {kind : Kind} {next : Bool → Parser β} {tokens rest : List Token} {value : β}
    (success : (isAt kind >>= next) tokens = .ok (value, rest)) :
    (∃ token more, tokens = token :: more ∧ token.kind = kind ∧
        next true (token :: more) = .ok (value, rest)) ∨
      next false tokens = .ok (value, rest) := by
  cases tokens with
  | nil => exact .inr success
  | cons token more =>
      by_cases same : token.kind = kind
      · have atKind : isAt kind (token :: more) = .ok (true, token :: more) := by
          change Except.ok (decide (token.kind = kind), token :: more) = _
          rw [decide_eq_true same]
        obtain ⟨_, _, start, success⟩ := bind_eq_ok success
        rw [atKind] at start
        cases start
        exact .inl ⟨token, more, rfl, same, success⟩
      · have notAt : isAt kind (token :: more) = .ok (false, token :: more) := by
          change Except.ok (decide (token.kind = kind), token :: more) = _
          rw [decide_eq_false same]
        obtain ⟨_, _, start, success⟩ := bind_eq_ok success
        rw [notAt] at start
        cases start
        exact .inr success

/-! ### Lists -/

theorem sound_skipComma : Sound skipComma fun _ taken _ => OptionalComma taken := by
  intro tokens value rest success
  obtain ⟨token, more, rfl, atToken⟩ := peek_step success
  by_cases comma : token.kind = .symbol .comma
  · rw [if_pos comma] at atToken
    cases atToken
    exact ⟨[token], rfl, .present comma⟩
  · rw [if_neg comma] at atToken
    cases atToken
    exact ⟨[], rfl, .absent⟩

theorem sound_listedWithin {close : Symbol} {item : Parser α} {phrase : α → List Token → Prop}
    (sound : Sound item fun value taken _ => phrase value taken) (budget : List Token) :
    Sound (listedWithin close item budget) fun values taken _ => Listing phrase values taken := by
  induction budget with
  | nil =>
      intro tokens value rest success
      cases success
  | cons spent budget ih =>
      intro tokens value rest success
      obtain ⟨token, more, rfl, atToken⟩ := peek_step success
      by_cases closed : token.kind = .symbol close
      · rw [if_pos closed] at atToken
        cases atToken
        exact ⟨[], rfl, .nil⟩
      · rw [if_neg closed] at atToken
        obtain ⟨first, front, _, split, isFirst, afterFirst⟩ := sound.step atToken
        obtain ⟨_, comma, _, rfl, isComma, afterComma⟩ := sound_skipComma.step afterFirst
        obtain ⟨others, back, _, rfl, isOthers, afterOthers⟩ := ih.step afterComma
        obtain ⟨rfl, rfl⟩ := pure_eq_ok afterOthers
        refine ⟨front ++ (comma ++ back), ?_, .cons isFirst isComma isOthers⟩
        rw [split, List.append_assoc, List.append_assoc]

/-- The closing sign ends a list and is taken with it. -/
theorem listed_step {close : Symbol} {item : Parser α} {phrase : α → List Token → Prop}
    (sound : Sound item fun value taken _ => phrase value taken) {next : List α → Parser β}
    {tokens rest : List Token} {value : β}
    (success : (listed close item >>= next) tokens = .ok (value, rest)) :
    ∃ values inner closing middle, tokens = inner ++ closing :: middle ∧
      Listing phrase values inner ∧ closing.kind = .symbol close ∧
        next values middle = .ok (value, rest) := by
  obtain ⟨values, middle, start, afterList⟩ := bind_eq_ok success
  obtain ⟨_, _, budget, afterBudget⟩ := bind_eq_ok start
  cases budget
  obtain ⟨found, inner, _, split, isListing, afterItems⟩ :=
    (sound_listedWithin sound tokens).step afterBudget
  obtain ⟨closing, _, rfl, isClosing, afterClosing⟩ := expectSign_step afterItems
  obtain ⟨rfl, rfl⟩ := pure_eq_ok afterClosing
  exact ⟨found, inner, closing, _, split, isListing, isClosing, afterList⟩

end

/-! ### Expressions -/

section

variable {operator? : Kind → Option Operator} {operand : Parser Expr}
  {inner outer : Expr → List Token → Prop}

private theorem sound_chainWithin (sound : Sound operand fun value taken _ => inner value taken)
    (joins : ∀ left front token operator right back, outer left front →
      operator? token.kind = some operator → inner right back →
        outer (.binary left operator right) (front ++ token :: back))
    (budget front : List Token) (left : Expr) (isLeft : outer left front) :
    Sound (chainWithin operator? operand left budget) fun value taken _ =>
      outer value (front ++ taken) := by
  induction budget generalizing left front with
  | nil =>
      intro tokens value rest success
      cases success
      have unchanged : outer left (front ++ []) := by rwa [List.append_nil]
      exact ⟨[], rfl, unchanged⟩
  | cons spent budget ih =>
      intro tokens value rest success
      obtain ⟨_, _, looked, atToken⟩ := bind_eq_ok success
      cases looked
      cases known : tokens.head?.bind fun token => operator? token.kind with
      | none =>
          rw [known] at atToken
          cases atToken
          have unchanged : outer left (front ++ []) := by rwa [List.append_nil]
          exact ⟨[], rfl, unchanged⟩
      | some operator =>
          rw [known] at atToken
          cases tokens with
          | nil => cases known
          | cons token more =>
              obtain ⟨_, _, advanced, afterToken⟩ := bind_eq_ok atToken
              cases advanced
              obtain ⟨right, back, middle, split, isRight, afterRight⟩ := sound.step afterToken
              have isPair := joins left front token operator right back isLeft known isRight
              obtain ⟨taken, rfl, isValue⟩ := ih _ _ isPair middle value rest afterRight
              change more = _ at split
              refine ⟨token :: (back ++ taken), ?_, ?_⟩
              · rw [split, List.cons_append, List.append_assoc]
              · rwa [List.append_assoc, List.cons_append] at isValue

theorem sound_chain (sound : Sound operand fun value taken _ => inner value taken)
    (embeds : ∀ value taken, inner value taken → outer value taken)
    (joins : ∀ left front token operator right back, outer left front →
      operator? token.kind = some operator → inner right back →
        outer (.binary left operator right) (front ++ token :: back)) :
    Sound (chain operator? operand) fun value taken _ => outer value taken := by
  intro tokens value rest success
  obtain ⟨left, front, _, rfl, isLeft, afterLeft⟩ := sound.step success
  obtain ⟨_, _, budget, afterBudget⟩ := bind_eq_ok afterLeft
  cases budget
  obtain ⟨taken, rfl, isValue⟩ :=
    sound_chainWithin sound joins _ front left (embeds left front isLeft) _ value rest afterBudget
  exact ⟨front ++ taken, (List.append_assoc _ _ _).symm, isValue⟩

end

private theorem yields_arguments {values : List Expr} {taken : List Token}
    (listing : Listing IsExpression values taken) : Yields (.arguments values) taken := by
  induction listing with
  | nil => exact .noArgument
  | cons first comma _ ih => exact .argument first comma ih

abbrev SoundExpression (reader : Parser Expr) : Prop :=
  Sound reader fun value taken _ => IsExpression value taken

theorem argumentsOf_step {β : Type} {reader : Parser Expr} (sound : SoundExpression reader)
    {next : List Expr → Parser β} {tokens rest : List Token} {value : β}
    (success : (argumentsOf reader >>= next) tokens = .ok (value, rest)) :
    ∃ values opening inner closing middle, tokens = opening :: (inner ++ closing :: middle) ∧
      opening.kind = .symbol .openParen ∧ Yields (.arguments values) inner ∧
        closing.kind = .symbol .closeParen ∧ next values middle = .ok (value, rest) := by
  obtain ⟨values, middle, start, afterArguments⟩ := bind_eq_ok success
  obtain ⟨opening, _, rfl, openingKind, afterOpening⟩ := expectSign_step start
  have pureNext : (listed .closeParen reader >>= pure) _ = .ok (values, middle) :=
    (bind_pure (listed .closeParen reader)).symm ▸ afterOpening
  obtain ⟨found, inner, closing, _, rfl, isListing, closingKind, afterList⟩ :=
    listed_step sound pureNext
  obtain ⟨rfl, rfl⟩ := pure_eq_ok afterList
  exact ⟨found, opening, inner, closing, _, rfl, openingKind, yields_arguments isListing,
    closingKind, afterArguments⟩

theorem sound_term {reader : Parser Expr} (sound : SoundExpression reader) :
    Sound (term reader) fun value taken _ => Yields (.operand value) taken := by
  intro tokens value rest success
  obtain ⟨token, more, rfl, atToken⟩ := peek_step success
  cases kind : token.kind with
  | number =>
      rw [kind] at atToken
      cases atToken
      exact ⟨[token], rfl, .constant (.inl kind)⟩
  | string =>
      rw [kind] at atToken
      cases atToken
      exact ⟨[token], rfl, .constant (.inr kind)⟩
  | identifier =>
      rw [kind] at atToken
      obtain ⟨_, _, advanced, afterName⟩ := bind_eq_ok atToken
      cases advanced
      rcases isAt_step afterName with ⟨_, _, isMore, _, afterLook⟩ | afterLook
      · change more = _ at isMore
        obtain ⟨values, opening, inner, closing, _, split, openingKind, isArguments, closingKind,
          afterArguments⟩ := argumentsOf_step sound afterLook
        obtain ⟨rfl, rfl⟩ := pure_eq_ok afterArguments
        refine ⟨token :: opening :: (inner ++ [closing]), ?_,
          .call kind openingKind isArguments closingKind⟩
        rw [isMore, split, List.cons_append, List.cons_append, List.append_assoc,
          List.singleton_append]
      · cases afterLook
        exact ⟨[token], rfl, .variable kind⟩
  | keyword word =>
      rw [kind] at atToken
      cases word with
      | trueWord =>
          cases atToken
          exact ⟨[token], rfl, .truth (.inl kind)⟩
      | falseWord =>
          cases atToken
          exact ⟨[token], rfl, .truth (.inr kind)⟩
      | _ => cases atToken
  | symbol sign =>
      rw [kind] at atToken
      cases sign with
      | openParen =>
          obtain ⟨_, _, advanced, afterOpening⟩ := bind_eq_ok atToken
          cases advanced
          obtain ⟨found, inner, _, split, isInner, afterInner⟩ := sound.step afterOpening
          obtain ⟨closing, _, rfl, closingKind, afterClosing⟩ := expectSign_step afterInner
          obtain ⟨rfl, rfl⟩ := pure_eq_ok afterClosing
          refine ⟨token :: (inner ++ [closing]), ?_, .group kind isInner closingKind⟩
          change more = _ at split
          rw [split, List.cons_append, List.append_assoc, List.singleton_append]
      | _ => cases atToken
  | _ =>
      rw [kind] at atToken
      cases atToken

theorem sound_expression (depth : Nat) : SoundExpression (expression depth) := by
  induction depth with
  | zero =>
      intro tokens value rest success
      cases success
  | succ depth ih =>
      have comparisons : Sound (comparison (expression depth)) fun value taken _ =>
          Yields (.comparison value) taken := by
        apply sound_chain (sound_term ih)
        · intro value taken yields
          exact .operand yields
        · intro left front token operator right back isLeft known isRight
          obtain ⟨level, same⟩ := Operator.arithmetic?_eq_some known
          exact .compare isLeft level same isRight
      apply sound_chain comparisons
      · intro value taken yields
        exact .comparison yields
      · intro left front token operator right back isLeft known isRight
        obtain ⟨level, same⟩ := Operator.logical?_eq_some known
        exact .join isLeft level same isRight

/-! ### Statements -/

abbrev SoundStatement (reader : Parser Stmt) : Prop :=
  Sound reader fun value taken rest => Derives (.statement value) taken rest

theorem sound_condition {reader : Parser Expr} (sound : SoundExpression reader) :
    Sound (condition reader) fun value taken _ => IsCondition value taken := by
  intro tokens value rest success
  obtain ⟨opening, _, rfl, openingKind, afterOpening⟩ := expectSign_step success
  obtain ⟨found, inner, _, rfl, isFound, afterFound⟩ := sound.step afterOpening
  obtain ⟨closing, _, rfl, closingKind, afterClosing⟩ := expectSign_step afterFound
  obtain ⟨rfl, rfl⟩ := pure_eq_ok afterClosing
  refine ⟨opening :: (inner ++ [closing]), ?_, .mk openingKind isFound closingKind⟩
  rw [List.cons_append, List.append_assoc, List.singleton_append]

theorem sound_statementsWithin {stop : Kind} {reader : Parser Stmt} (sound : SoundStatement reader)
    (budget : List Token) :
    Sound (statementsWithin stop reader budget) fun values taken rest =>
      Derives (.statements values) taken rest := by
  induction budget with
  | nil =>
      intro tokens value rest success
      cases success
      exact ⟨[], rfl, .noStatement⟩
  | cons spent budget ih =>
      intro tokens value rest success
      cases tokens with
      | nil =>
          cases success
          exact ⟨[], rfl, .noStatement⟩
      | cons token more =>
          obtain ⟨_, _, looked, atToken⟩ := bind_eq_ok success
          cases looked
          by_cases stopped : token.kind = stop
          · simp only [List.head?_cons, stopped, if_true] at atToken
            cases atToken
            exact ⟨[], rfl, .noStatement⟩
          · simp only [List.head?_cons, stopped, if_false] at atToken
            obtain ⟨first, front, _, split, isFirst, afterFirst⟩ := sound.step atToken
            obtain ⟨others, back, _, rfl, isOthers, afterOthers⟩ := ih.step afterFirst
            obtain ⟨rfl, rfl⟩ := pure_eq_ok afterOthers
            refine ⟨front ++ back, ?_, .statements isFirst isOthers⟩
            rw [split, List.append_assoc]

theorem sound_statementsUntil {stop : Kind} {reader : Parser Stmt}
    (sound : SoundStatement reader) :
    Sound (statementsUntil stop reader) fun values taken rest =>
      Derives (.statements values) taken rest :=
  fun tokens => sound_statementsWithin sound tokens tokens

theorem sound_body {reader : Parser Stmt} (sound : SoundStatement reader) :
    Sound (body reader) fun values taken rest => Derives (.body values) taken rest := by
  intro tokens value rest success
  obtain ⟨colon, _, rfl, colonKind, afterColon⟩ := expectSign_step success
  obtain ⟨opening, _, rfl, openingKind, afterOpening⟩ := expect_step afterColon
  obtain ⟨found, inner, _, rfl, isFound, afterFound⟩ :=
    (sound_statementsUntil sound).step afterOpening
  obtain ⟨closing, _, rfl, closingKind, afterClosing⟩ := expect_step afterFound
  obtain ⟨rfl, rfl⟩ := pure_eq_ok afterClosing
  refine ⟨colon :: opening :: (inner ++ [closing]), ?_,
    .body colonKind openingKind isFound closingKind⟩
  rw [List.cons_append, List.cons_append, List.append_assoc, List.singleton_append]

theorem sound_assignment {reader : Parser Expr} (sound : SoundExpression reader) :
    SoundStatement (assignment reader) := by
  intro tokens value rest success
  obtain ⟨word, _, rfl, wordKind, afterWord⟩ := expectWord_step success
  obtain ⟨name, _, rfl, nameKind, afterName⟩ := identifier_step afterWord
  obtain ⟨sign, _, rfl, signKind, afterSign⟩ := expectSign_step afterName
  obtain ⟨found, taken, _, rfl, isFound, afterFound⟩ := sound.step afterSign
  obtain ⟨rfl, rfl⟩ := pure_eq_ok afterFound
  exact ⟨word :: name :: sign :: taken, rfl, .assign wordKind nameKind signKind isFound⟩

/-- After the word, a print statement is an argument list. -/
theorem sound_printing {reader : Parser Expr} (sound : SoundExpression reader) {word : Token}
    (wordKind : word.kind = .keyword .printlineWord ∨ word.kind = .keyword .printlinefWord)
    {more rest : List Token} {value : Stmt}
    (success : printing reader (word :: more) = .ok (value, rest)) :
    ∃ taken, word :: more = taken ++ rest ∧ Derives (.statement value) taken rest := by
  obtain ⟨token, _, same, atToken⟩ := peek_step success
  cases same
  rw [if_pos wordKind] at atToken
  obtain ⟨_, _, advanced, afterWord⟩ := bind_eq_ok atToken
  cases advanced
  obtain ⟨values, opening, inner, closing, _, split, openingKind, isArguments, closingKind,
    afterArguments⟩ := argumentsOf_step sound afterWord
  obtain ⟨rfl, rfl⟩ := pure_eq_ok afterArguments
  refine ⟨word :: opening :: (inner ++ [closing]), ?_,
    .print wordKind openingKind isArguments closingKind⟩
  change more = _ at split
  rw [split, List.cons_append, List.cons_append, List.append_assoc, List.singleton_append]

theorem sound_armsWithin {expressions : Parser Expr} {statements : Parser Stmt}
    (soundExpressions : SoundExpression expressions) (soundStatements : SoundStatement statements)
    (budget : List Token) :
    Sound (armsWithin expressions statements budget) fun arms taken rest =>
      Derives (.arms arms) taken rest := by
  induction budget with
  | nil =>
      intro tokens value rest success
      cases success
      exact ⟨[], rfl, .noArm⟩
  | cons spent budget ih =>
      intro tokens value rest success
      rcases isAt_step success with ⟨word, more, rfl, wordKind, atWord⟩ | noWord
      · obtain ⟨_, _, advanced, afterWord⟩ := bind_eq_ok atWord
        cases advanced
        obtain ⟨test, condition, _, split, isTest, afterTest⟩ :=
          (sound_condition soundExpressions).step afterWord
        obtain ⟨found, body, _, rfl, isFound, afterFound⟩ :=
          (sound_body soundStatements).step afterTest
        obtain ⟨arms, others, _, rfl, isOthers, afterOthers⟩ := ih.step afterFound
        obtain ⟨rfl, rfl⟩ := pure_eq_ok afterOthers
        refine ⟨word :: (condition ++ (body ++ others)), ?_,
          .arm wordKind isTest isFound isOthers⟩
        change more = _ at split
        rw [split, List.cons_append, List.append_assoc, List.append_assoc]
      · cases noWord
        exact ⟨[], rfl, .noArm⟩

section

variable {expressions : Parser Expr} {statements : Parser Stmt}

theorem sound_branching (soundExpressions : SoundExpression expressions)
    (soundStatements : SoundStatement statements) :
    SoundStatement (branching expressions statements) := by
  intro tokens value rest success
  obtain ⟨word, _, rfl, wordKind, afterWord⟩ := expectWord_step success
  obtain ⟨test, condition, _, rfl, isTest, afterTest⟩ :=
    (sound_condition soundExpressions).step afterWord
  obtain ⟨found, body, _, rfl, isFound, afterFound⟩ := (sound_body soundStatements).step afterTest
  obtain ⟨_, _, budget, afterBudget⟩ := bind_eq_ok afterFound
  cases budget
  obtain ⟨arms, others, middle, rfl, isArms, afterArms⟩ :=
    (sound_armsWithin soundExpressions soundStatements _).step afterBudget
  rcases isAt_step afterArms with ⟨elseWord, more, rfl, elseKind, atElse⟩ | noElse
  · obtain ⟨_, _, advanced, afterElse⟩ := bind_eq_ok atElse
    cases advanced
    obtain ⟨last, lastBody, _, split, isLast, afterLast⟩ :=
      (sound_body soundStatements).step afterElse
    change more = _ at split
    subst split
    obtain ⟨rfl, rfl⟩ := pure_eq_ok afterLast
    refine ⟨word :: (condition ++ (body ++ (others ++ elseWord :: lastBody))), ?_,
      .branch wordKind isTest isFound isArms (.otherwise elseKind isLast)⟩
    simp only [List.cons_append, List.append_assoc]
  · obtain ⟨rfl, rfl⟩ := pure_eq_ok noElse
    refine ⟨word :: (condition ++ (body ++ (others ++ []))), ?_,
      .branch wordKind isTest isFound isArms .noOtherwise⟩
    simp only [List.cons_append, List.append_assoc, List.nil_append]

theorem sound_counting (soundExpressions : SoundExpression expressions)
    (soundStatements : SoundStatement statements) :
    SoundStatement (counting expressions statements) := by
  intro tokens value rest success
  obtain ⟨word, _, rfl, wordKind, afterWord⟩ := expectWord_step success
  obtain ⟨name, _, rfl, nameKind, afterName⟩ := identifier_step afterWord
  obtain ⟨inWord, _, rfl, inKind, afterIn⟩ := expectWord_step afterName
  obtain ⟨range, _, rfl, rangeKind, afterRange⟩ := expectWord_step afterIn
  obtain ⟨limit, condition, _, rfl, isLimit, afterLimit⟩ :=
    (sound_condition soundExpressions).step afterRange
  obtain ⟨found, body, _, rfl, isFound, afterFound⟩ := (sound_body soundStatements).step afterLimit
  obtain ⟨rfl, rfl⟩ := pure_eq_ok afterFound
  refine ⟨word :: name :: inWord :: range :: (condition ++ body), ?_,
    .count wordKind nameKind inKind rangeKind isLimit isFound⟩
  simp only [List.cons_append, List.append_assoc]

theorem sound_looping (soundExpressions : SoundExpression expressions)
    (soundStatements : SoundStatement statements) :
    SoundStatement (looping expressions statements) := by
  intro tokens value rest success
  obtain ⟨word, _, rfl, wordKind, afterWord⟩ := expectWord_step success
  obtain ⟨test, condition, _, rfl, isTest, afterTest⟩ :=
    (sound_condition soundExpressions).step afterWord
  obtain ⟨found, body, _, rfl, isFound, afterFound⟩ := (sound_body soundStatements).step afterTest
  obtain ⟨rfl, rfl⟩ := pure_eq_ok afterFound
  refine ⟨word :: (condition ++ body), ?_, .loop wordKind isTest isFound⟩
  simp only [List.cons_append, List.append_assoc]

private theorem sound_identifier :
    Sound identifier fun parameter taken _ => IsParameter parameter taken := by
  intro tokens value rest success
  obtain ⟨token, _, rfl, kind, afterToken⟩ := expect_step success
  obtain ⟨rfl, rfl⟩ := pure_eq_ok afterToken
  exact ⟨[token], rfl, .mk kind⟩

theorem sound_definition (soundStatements : SoundStatement statements) :
    SoundStatement (definition statements) := by
  intro tokens value rest success
  obtain ⟨word, _, rfl, wordKind, afterWord⟩ := expectWord_step success
  obtain ⟨name, _, rfl, nameKind, afterName⟩ := identifier_step afterWord
  obtain ⟨opening, _, rfl, openingKind, afterOpening⟩ := expectSign_step afterName
  obtain ⟨parameters, inner, closing, _, rfl, isListing, closingKind, afterList⟩ :=
    listed_step sound_identifier afterOpening
  obtain ⟨found, body, _, rfl, isFound, afterFound⟩ := (sound_body soundStatements).step afterList
  obtain ⟨rfl, rfl⟩ := pure_eq_ok afterFound
  refine ⟨word :: name :: opening :: (inner ++ closing :: body), ?_,
    .define wordKind nameKind openingKind isListing closingKind isFound⟩
  simp only [List.cons_append, List.append_assoc]

theorem sound_result (sound : SoundExpression expressions) :
    SoundStatement (result expressions) := by
  intro tokens value rest success
  obtain ⟨word, more, rfl, wordKind, afterWord⟩ := expectWord_step success
  cases more with
  | nil =>
      cases afterWord
      exact ⟨[word], rfl, .noResult wordKind (by intro token member; cases member)⟩
  | cons token more =>
      obtain ⟨_, _, looked, atToken⟩ := bind_eq_ok afterWord
      cases looked
      by_cases ended : token.kind = .endOfSource
      · simp only [List.head?_cons, ended, if_true] at atToken
        cases atToken
        have atEnd : AtEnd (token :: more) := by
          intro first member
          cases member
          exact ended
        exact ⟨[word], rfl, .noResult wordKind atEnd⟩
      · simp only [List.head?_cons, ended, if_false] at atToken
        obtain ⟨found, taken, _, split, isFound, afterFound⟩ := sound.step atToken
        obtain ⟨rfl, rfl⟩ := pure_eq_ok afterFound
        refine ⟨word :: taken, ?_, .result wordKind isFound⟩
        rw [split, List.cons_append]

private theorem sound_tableField (sound : SoundExpression expressions) :
    Sound (tableField expressions) fun field taken _ => IsField field taken := by
  intro tokens value rest success
  obtain ⟨key, _, rfl, keyKind, afterKey⟩ := expect_step success
  obtain ⟨colon, _, rfl, colonKind, afterColon⟩ := expectSign_step afterKey
  obtain ⟨found, taken, _, rfl, isFound, afterFound⟩ := sound.step afterColon
  obtain ⟨rfl, rfl⟩ := pure_eq_ok afterFound
  exact ⟨key :: colon :: taken, rfl, .mk keyKind colonKind isFound⟩

theorem sound_tableDefinition (sound : SoundExpression expressions) :
    SoundStatement (tableDefinition expressions) := by
  intro tokens value rest success
  obtain ⟨word, _, rfl, wordKind, afterWord⟩ := expectWord_step success
  obtain ⟨name, _, rfl, nameKind, afterName⟩ := identifier_step afterWord
  obtain ⟨sign, _, rfl, signKind, afterSign⟩ := expectSign_step afterName
  obtain ⟨opening, _, rfl, openingKind, afterOpening⟩ := expectSign_step afterSign
  obtain ⟨pairs, inner, closing, _, rfl, isListing, closingKind, afterList⟩ :=
    listed_step (sound_tableField sound) afterOpening
  obtain ⟨rfl, rfl⟩ := pure_eq_ok afterList
  refine ⟨word :: name :: sign :: opening :: (inner ++ [closing]), ?_,
    .table wordKind nameKind signKind openingKind isListing closingKind⟩
  simp only [List.cons_append, List.append_assoc, List.nil_append]

theorem sound_loading : SoundStatement loading := by
  intro tokens value rest success
  obtain ⟨word, _, rfl, wordKind, afterWord⟩ := expectWord_step success
  obtain ⟨library, more, rfl, atLibrary⟩ := peek_step afterWord
  by_cases text : library.kind = .string
  · rw [if_pos text] at atLibrary
    cases atLibrary
    exact ⟨[word, library], rfl, .load wordKind (.inl text)⟩
  · rw [if_neg text] at atLibrary
    obtain ⟨name, _, same, nameKind, afterName⟩ := identifier_step atLibrary
    cases same
    obtain ⟨rfl, rfl⟩ := pure_eq_ok afterName
    exact ⟨[word, library], rfl, .load wordKind (.inr nameKind)⟩

private theorem sound_evaluation (sound : SoundExpression expressions) :
    SoundStatement (expressions >>= fun value => pure (.evaluate value)) := by
  intro tokens value rest success
  obtain ⟨found, taken, _, rfl, isFound, afterFound⟩ := sound.step success
  obtain ⟨rfl, rfl⟩ := pure_eq_ok afterFound
  exact ⟨taken, rfl, .evaluate isFound⟩

theorem sound_statementOf (soundExpressions : SoundExpression expressions)
    (soundStatements : SoundStatement statements) :
    SoundStatement (statementOf expressions statements) := by
  intro tokens value rest success
  obtain ⟨token, more, rfl, atToken⟩ := peek_step success
  cases kind : token.kind with
  | keyword word =>
      rw [kind] at atToken
      cases word with
      | localWord => exact sound_assignment soundExpressions _ _ _ atToken
      | printlineWord => exact sound_printing soundExpressions (.inl kind) atToken
      | printlinefWord => exact sound_printing soundExpressions (.inr kind) atToken
      | ifWord => exact sound_branching soundExpressions soundStatements _ _ _ atToken
      | forWord => exact sound_counting soundExpressions soundStatements _ _ _ atToken
      | whileWord => exact sound_looping soundExpressions soundStatements _ _ _ atToken
      | breakWord =>
          cases atToken
          exact ⟨[token], rfl, .leave kind⟩
      | continueWord =>
          cases atToken
          exact ⟨[token], rfl, .next kind⟩
      | funcWord => exact sound_definition soundStatements _ _ _ atToken
      | returnWord => exact sound_result soundExpressions _ _ _ atToken
      | tableWord => exact sound_tableDefinition soundExpressions _ _ _ atToken
      | importWord => exact sound_loading _ _ _ atToken
      | _ => exact sound_evaluation soundExpressions _ _ _ atToken
  | _ =>
      rw [kind] at atToken
      exact sound_evaluation soundExpressions _ _ _ atToken

end

theorem sound_statement (depth : Nat) : SoundStatement (statement depth) := by
  induction depth with
  | zero =>
      intro tokens value rest success
      cases success
  | succ depth ih => exact sound_statementOf (sound_expression (depth + 1)) ih

/-! ### Programs -/

/-- Statements are read up to the token that ends them: each takes a token, so that the budget
lasts. -/
theorem statementsWithin_stop {stop : Kind} {reader : Parser Stmt} (sound : SoundStatement reader)
    (budget tokens rest : List Token) (values : Block) (enough : tokens.length ≤ budget.length)
    (success : statementsWithin stop reader budget tokens = .ok (values, rest)) :
    ∀ token ∈ rest.head?, token.kind = stop := by
  induction budget generalizing tokens values with
  | nil =>
      cases tokens with
      | nil =>
          cases success
          intro token member
          cases member
      | cons token more => cases enough
  | cons spent budget ih =>
      cases tokens with
      | nil =>
          cases success
          intro token member
          cases member
      | cons token more =>
          obtain ⟨_, _, looked, atToken⟩ := bind_eq_ok success
          cases looked
          by_cases stopped : token.kind = stop
          · simp only [List.head?_cons, stopped, if_true] at atToken
            cases atToken
            intro first member
            cases member
            exact stopped
          · simp only [List.head?_cons, stopped, if_false] at atToken
            obtain ⟨first, front, middle, split, isFirst, afterFirst⟩ := sound.step atToken
            obtain ⟨others, _, start, afterOthers⟩ := bind_eq_ok afterFirst
            obtain ⟨rfl, rfl⟩ := pure_eq_ok afterOthers
            have shorter : middle.length ≤ budget.length := by
              have taken := List.length_pos_iff.mpr isFirst.ne_nil
              have lengths := congrArg List.length split
              rw [List.length_append] at lengths
              have bound : (token :: more).length ≤ budget.length + 1 := enough
              omega
            exact ih middle others shorter start

theorem program_stop {depth : Nat} {tokens rest : List Token} {found : Program}
    (success : program depth tokens = .ok (found, rest)) : AtEnd rest := by
  obtain ⟨values, middle, read, afterValues⟩ := bind_eq_ok success
  obtain ⟨_, rfl⟩ := pure_eq_ok afterValues
  exact statementsWithin_stop (sound_statement depth) tokens tokens _ values (Nat.le_refl _) read

theorem start_of_ne_nil {α : Type} (reader : Parser α) {tokens : List Token}
    (nonempty : tokens ≠ []) : reader.start tokens = reader tokens := by
  cases tokens with
  | nil => exact absurd rfl nonempty
  | cons token rest => rfl

end Parser

theorem parseWithin_eq_map {level : Nat} {tokens : List Token} (nonempty : tokens ≠ []) :
    parseWithin level tokens = (Parser.program level tokens).map Prod.fst := by
  change Except.bind ((Parser.program level).start tokens) _ = _
  rw [Parser.start_of_ne_nil _ nonempty]
  cases Parser.program level tokens with
  | error failure => rfl
  | ok found => rfl

theorem parseWithin_eq_ok {depth : Nat} {tokens : List Token} {program : Program}
    (success : parseWithin depth tokens = .ok program) :
    ∃ rest, Parser.statementsWithin .endOfSource (Parser.statement depth) tokens tokens =
      .ok (program.statements, rest) := by
  cases tokens with
  | nil => cases success
  | cons token more =>
      change Except.bind (Parser.program depth (token :: more)) _ = _ at success
      cases start : Parser.program depth (token :: more) with
      | error failure =>
          rw [start] at success
          cases success
      | ok found =>
          rw [start] at success
          cases success
          obtain ⟨values, rest, read, afterValues⟩ := Parser.bind_eq_ok start
          obtain ⟨same, _⟩ := Parser.pure_eq_ok afterValues
          refine ⟨rest, ?_⟩
          rw [← same]
          exact read

def beforeEnd (tokens : List Token) : List Token :=
  tokens.takeWhile fun token => token.kind ≠ .endOfSource

def fromEnd (tokens : List Token) : List Token :=
  tokens.dropWhile fun token => token.kind ≠ .endOfSource

theorem beforeEnd_append {taken rest : List Token}
    (inside : ∀ token ∈ taken, token.kind ≠ .endOfSource) (ended : AtEnd rest) :
    beforeEnd (taken ++ rest) = taken ∧ fromEnd (taken ++ rest) = rest := by
  have allInside : ∀ token ∈ taken, decide (token.kind ≠ .endOfSource) = true :=
    fun token member => decide_eq_true (inside token member)
  rw [beforeEnd, fromEnd, List.takeWhile_append_of_pos allInside,
    List.dropWhile_append_of_pos allInside]
  cases rest with
  | nil => exact ⟨List.append_nil taken, rfl⟩
  | cons token more =>
      have final := ended token rfl
      simp [final]

/-- A token list that is read into a program is, up to the end of the source, a list of the grammar
for that program; in it, blocks open after colons only, and there are no tokens but those of the
grammar. -/
theorem derives_of_parseWithin {depth : Nat} {tokens : List Token} {program : Program}
    (success : parseWithin depth tokens = .ok program) :
    Derives (.statements program.statements) (beforeEnd tokens) (fromEnd tokens) ∧
      OpensAfterColons (beforeEnd tokens) ∧
      ∀ token ∈ beforeEnd tokens, token.kind ∈ programKinds := by
  cases tokens with
  | nil => cases success
  | cons token more =>
      change Except.bind (Parser.program depth (token :: more)) _ = _ at success
      cases start : Parser.program depth (token :: more) with
      | error failure =>
          rw [start] at success
          cases success
      | ok found =>
          rw [start] at success
          cases success
          obtain ⟨program, rest⟩ := found
          obtain ⟨values, middle, read, afterValues⟩ := Parser.bind_eq_ok start
          obtain ⟨rfl, rfl⟩ := Parser.pure_eq_ok afterValues
          obtain ⟨taken, split, derives⟩ :=
            Parser.sound_statementsUntil (Parser.sound_statement depth) _ _ _ read
          have ended : AtEnd middle :=
            Parser.statementsWithin_stop (Parser.sound_statement depth) _ _ _ _ (Nat.le_refl _) read
          have proper := derives.proper
          have inside : ∀ token ∈ taken, token.kind ≠ .endOfSource := by
            intro other member final
            have known := proper.kinds other member
            rw [final] at known
            revert known
            decide
          obtain ⟨before, after⟩ := beforeEnd_append inside ended
          rw [split, before, after]
          exact ⟨derives, proper.opens, proper.kinds⟩

def loopTokens : List Token :=
  [⟨.keyword .whileWord, .text "while", 1⟩, ⟨.symbol .openParen, .text "(", 1⟩,
    ⟨.identifier, .text "n", 1⟩, ⟨.symbol .closeParen, .text ")", 1⟩,
    ⟨.symbol .colon, .text ":", 1⟩, ⟨.indent, .text "INDENT", 2⟩,
    ⟨.keyword .breakWord, .text "break", 2⟩, ⟨.dedent, .text "DEDENT", 3⟩,
    ⟨.keyword .returnWord, .text "return", 3⟩, ⟨.endOfSource, .absent, 3⟩]

theorem derives_loopTokens :
    Derives (.statements [.loop (.variable "n") [.leave], .result none]) (beforeEnd loopTokens)
        (fromEnd loopTokens) ∧
      OpensAfterColons (beforeEnd loopTokens) ∧
      ∀ token ∈ beforeEnd loopTokens, token.kind ∈ programKinds :=
  @derives_of_parseWithin 2 loopTokens ⟨[.loop (.variable "n") [.leave], .result none]⟩ rfl

end IndentScript
