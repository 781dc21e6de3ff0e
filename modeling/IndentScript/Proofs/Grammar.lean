import IndentScript.Program.Parser

/-!
The grammar of token lists, apart from any way of reading them.

Expressions have two levels of operators, each joining its operands from the left. A statement is
related to its tokens and to the tokens that follow it: the end of a function may lack its value
only where the source ends.

Of every list in the grammar two facts are shown: a token that opens a block comes right after a
colon, and there are no tokens but those of the language's statements and expressions.
-/

namespace IndentScript

namespace Operator

def tighter : List Operator :=
  [plus, minus, equals, greater, less, times, divide, percent]

def looser : List Operator :=
  [and, or]

theorem arithmetic?_eq_some {kind : Kind} {operator : Operator}
    (known : arithmetic? kind = some operator) : operator ∈ tighter ∧ kind = operator.kind := by
  unfold arithmetic? at known
  split at known <;> cases known <;> decide

theorem logical?_eq_some {kind : Kind} {operator : Operator}
    (known : logical? kind = some operator) : operator ∈ looser ∧ kind = operator.kind := by
  unfold logical? at known
  split at known <;> cases known <;> decide

end Operator

namespace Grammar

inductive OptionalComma : List Token → Prop where
  | absent : OptionalComma []
  | present {comma : Token} : comma.kind = .symbol .comma → OptionalComma [comma]

/-- Items one after another, each with an optional comma behind it. -/
inductive Listing {α : Type} (item : α → List Token → Prop) : List α → List Token → Prop where
  | nil : Listing item [] []
  | cons {value : α} {values : List α} {front comma back : List Token} :
    item value front → OptionalComma comma → Listing item values back →
      Listing item (value :: values) (front ++ (comma ++ back))

/-! ### Expressions -/

inductive Phrase where
  | operand (value : Expr)
  /-- Operands joined by operators of the tighter level. -/
  | comparison (value : Expr)
  | expression (value : Expr)
  /-- Expressions, each with an optional comma behind it. -/
  | arguments (values : List Expr)

inductive Yields : Phrase → List Token → Prop where
  | constant {token : Token} : token.kind = .number ∨ token.kind = .string →
    Yields (.operand (.literal (Parser.literalOf token))) [token]
  | truth {token : Token} : token.kind = .keyword .trueWord ∨ token.kind = .keyword .falseWord →
    Yields (.operand (.literal (.bool (token.payload = .text "TRUE")))) [token]
  | variable {name : Token} : name.kind = .identifier →
    Yields (.operand (.variable name.payload.asText)) [name]
  | call {name opening closing : Token} {values : List Expr} {inner : List Token} :
    name.kind = .identifier → opening.kind = .symbol .openParen →
    Yields (.arguments values) inner → closing.kind = .symbol .closeParen →
      Yields (.operand (.call name.payload.asText values)) (name :: opening :: (inner ++ [closing]))
  | group {opening closing : Token} {value : Expr} {inner : List Token} :
    opening.kind = .symbol .openParen → Yields (.expression value) inner →
    closing.kind = .symbol .closeParen →
      Yields (.operand value) (opening :: (inner ++ [closing]))
  | operand {value : Expr} {taken : List Token} :
    Yields (.operand value) taken → Yields (.comparison value) taken
  | compare {left right : Expr} {operator : Operator} {token : Token} {front back : List Token} :
    Yields (.comparison left) front → operator ∈ Operator.tighter → token.kind = operator.kind →
    Yields (.operand right) back →
      Yields (.comparison (.binary left operator right)) (front ++ token :: back)
  | comparison {value : Expr} {taken : List Token} :
    Yields (.comparison value) taken → Yields (.expression value) taken
  | join {left right : Expr} {operator : Operator} {token : Token} {front back : List Token} :
    Yields (.expression left) front → operator ∈ Operator.looser → token.kind = operator.kind →
    Yields (.comparison right) back →
      Yields (.expression (.binary left operator right)) (front ++ token :: back)
  | noArgument : Yields (.arguments []) []
  | argument {value : Expr} {values : List Expr} {front comma back : List Token} :
    Yields (.expression value) front → OptionalComma comma → Yields (.arguments values) back →
      Yields (.arguments (value :: values)) (front ++ (comma ++ back))

def IsExpression (value : Expr) (taken : List Token) : Prop :=
  Yields (.expression value) taken

inductive IsCondition : Expr → List Token → Prop where
  | mk {opening closing : Token} {value : Expr} {inner : List Token} :
    opening.kind = .symbol .openParen → IsExpression value inner →
    closing.kind = .symbol .closeParen → IsCondition value (opening :: (inner ++ [closing]))

inductive IsParameter : String → List Token → Prop where
  | mk {name : Token} : name.kind = .identifier → IsParameter name.payload.asText [name]

inductive IsField : String × Expr → List Token → Prop where
  | mk {key colon : Token} {value : Expr} {taken : List Token} :
    key.kind = .string → colon.kind = .symbol .colon → IsExpression value taken →
      IsField (key.payload.asText, value) (key :: colon :: taken)

/-! ### Statements -/

inductive Sentence where
  | statement (value : Stmt)
  | statements (values : Block)
  /-- A colon and an indented block. -/
  | body (values : Block)
  | arms (values : List (Expr × Block))
  | otherwise (value : Option Block)

def AtEnd (follow : List Token) : Prop :=
  ∀ token ∈ follow.head?, token.kind = .endOfSource

/-- The tokens of a sentence, before the given ones. -/
inductive Derives : Sentence → List Token → List Token → Prop where
  | assign {word name sign : Token} {value : Expr} {taken follow : List Token} :
    word.kind = .keyword .localWord → name.kind = .identifier → sign.kind = .symbol .assign →
    IsExpression value taken →
      Derives (.statement (.assign name.payload.asText value)) (word :: name :: sign :: taken)
        follow
  | print {word opening closing : Token} {values : List Expr} {inner follow : List Token} :
    word.kind = .keyword .printlineWord ∨ word.kind = .keyword .printlinefWord →
    opening.kind = .symbol .openParen → Yields (.arguments values) inner →
    closing.kind = .symbol .closeParen →
      Derives (.statement (.print values)) (word :: opening :: (inner ++ [closing])) follow
  | branch {word : Token} {test : Expr} {values : Block} {arms : List (Expr × Block)}
      {otherwise : Option Block} {condition body others last follow : List Token} :
    word.kind = .keyword .ifWord → IsCondition test condition →
    Derives (.body values) body (others ++ (last ++ follow)) →
    Derives (.arms arms) others (last ++ follow) → Derives (.otherwise otherwise) last follow →
      Derives (.statement (.branch test values arms otherwise))
        (word :: (condition ++ (body ++ (others ++ last)))) follow
  | count {word name inWord range : Token} {limit : Expr} {values : Block}
      {condition body follow : List Token} :
    word.kind = .keyword .forWord → name.kind = .identifier → inWord.kind = .keyword .inWord →
    range.kind = .keyword .rangeWord → IsCondition limit condition →
    Derives (.body values) body follow →
      Derives (.statement (.count name.payload.asText limit values))
        (word :: name :: inWord :: range :: (condition ++ body)) follow
  | loop {word : Token} {test : Expr} {values : Block} {condition body follow : List Token} :
    word.kind = .keyword .whileWord → IsCondition test condition →
    Derives (.body values) body follow →
      Derives (.statement (.loop test values)) (word :: (condition ++ body)) follow
  | leave {word : Token} {follow : List Token} : word.kind = .keyword .breakWord →
    Derives (.statement .leave) [word] follow
  | next {word : Token} {follow : List Token} : word.kind = .keyword .continueWord →
    Derives (.statement .next) [word] follow
  | define {word name opening closing : Token} {parameters : List String} {values : Block}
      {inner body follow : List Token} :
    word.kind = .keyword .funcWord → name.kind = .identifier →
    opening.kind = .symbol .openParen → Listing IsParameter parameters inner →
    closing.kind = .symbol .closeParen → Derives (.body values) body follow →
      Derives (.statement (.define name.payload.asText parameters values))
        (word :: name :: opening :: (inner ++ closing :: body)) follow
  | noResult {word : Token} {follow : List Token} : word.kind = .keyword .returnWord →
    AtEnd follow → Derives (.statement (.result none)) [word] follow
  | result {word : Token} {value : Expr} {taken follow : List Token} :
    word.kind = .keyword .returnWord → IsExpression value taken →
      Derives (.statement (.result (some value))) (word :: taken) follow
  | table {word name sign opening closing : Token} {pairs : List (String × Expr)}
      {inner follow : List Token} :
    word.kind = .keyword .tableWord → name.kind = .identifier → sign.kind = .symbol .assign →
    opening.kind = .symbol .openBrace → Listing IsField pairs inner →
    closing.kind = .symbol .closeBrace →
      Derives (.statement (.assign name.payload.asText (.table (Entries.ofPairs pairs))))
        (word :: name :: sign :: opening :: (inner ++ [closing])) follow
  | load {word library : Token} {follow : List Token} : word.kind = .keyword .importWord →
    library.kind = .string ∨ library.kind = .identifier →
      Derives (.statement (.load library.payload.asText)) [word, library] follow
  | evaluate {value : Expr} {taken follow : List Token} : IsExpression value taken →
    Derives (.statement (.evaluate value)) taken follow
  | noStatement {follow : List Token} : Derives (.statements []) [] follow
  | statements {value : Stmt} {values : Block} {front back follow : List Token} :
    Derives (.statement value) front (back ++ follow) → Derives (.statements values) back follow →
      Derives (.statements (value :: values)) (front ++ back) follow
  | body {colon opening closing : Token} {values : Block} {inner follow : List Token} :
    colon.kind = .symbol .colon → opening.kind = .indent →
    Derives (.statements values) inner (closing :: follow) → closing.kind = .dedent →
      Derives (.body values) (colon :: opening :: (inner ++ [closing])) follow
  | noArm {follow : List Token} : Derives (.arms []) [] follow
  | arm {word : Token} {test : Expr} {values : Block} {arms : List (Expr × Block)}
      {condition body others follow : List Token} :
    word.kind = .keyword .elifWord → IsCondition test condition →
    Derives (.body values) body (others ++ follow) → Derives (.arms arms) others follow →
      Derives (.arms ((test, values) :: arms)) (word :: (condition ++ (body ++ others))) follow
  | noOtherwise {follow : List Token} : Derives (.otherwise none) [] follow
  | otherwise {word : Token} {values : Block} {body follow : List Token} :
    word.kind = .keyword .elseWord → Derives (.body values) body follow →
      Derives (.otherwise (some values)) (word :: body) follow

/-! ### Tokens of the grammar -/

def expressionKinds : List Kind :=
  [.number, .string, .identifier, .keyword .trueWord, .keyword .falseWord, .symbol .openParen,
    .symbol .closeParen, .symbol .comma, .symbol .plus, .symbol .minus, .symbol .equals,
    .symbol .greater, .symbol .less, .symbol .times, .symbol .slash, .symbol .percent,
    .keyword .andWord, .keyword .orWord]

def programKinds : List Kind :=
  expressionKinds ++
    [.keyword .localWord, .keyword .printlineWord, .keyword .printlinefWord, .keyword .importWord,
      .keyword .forWord, .keyword .inWord, .keyword .rangeWord, .keyword .ifWord,
      .keyword .elifWord, .keyword .elseWord, .keyword .whileWord, .keyword .breakWord,
      .keyword .continueWord, .keyword .funcWord, .keyword .returnWord, .keyword .tableWord,
      .symbol .assign, .symbol .colon, .symbol .openBrace, .symbol .closeBrace, .indent, .dedent]

theorem kind_of_tighter : ∀ operator ∈ Operator.tighter, operator.kind ∈ expressionKinds := by
  decide

theorem kind_of_looser : ∀ operator ∈ Operator.looser, operator.kind ∈ expressionKinds := by
  decide

theorem OptionalComma.kinds {taken : List Token} (comma : OptionalComma taken) :
    ∀ token ∈ taken, token.kind ∈ expressionKinds := by
  cases comma with
  | absent => exact List.forall_mem_nil _
  | present kind =>
      rw [List.forall_mem_singleton, kind]
      decide

theorem Yields.kinds {phrase : Phrase} {taken : List Token} (yields : Yields phrase taken) :
    ∀ token ∈ taken, token.kind ∈ expressionKinds := by
  induction yields with
  | constant kind =>
      rw [List.forall_mem_singleton]
      rcases kind with kind | kind <;> rw [kind] <;> decide
  | truth kind =>
      rw [List.forall_mem_singleton]
      rcases kind with kind | kind <;> rw [kind] <;> decide
  | «variable» kind =>
      rw [List.forall_mem_singleton, kind]
      decide
  | call nameKind openingKind _ closingKind ih =>
      simp only [List.forall_mem_cons, List.forall_mem_append, nameKind, openingKind, closingKind]
      exact ⟨by decide, by decide, ih, by decide⟩
  | group openingKind _ closingKind ih =>
      simp only [List.forall_mem_cons, List.forall_mem_append, openingKind, closingKind]
      exact ⟨by decide, ih, by decide⟩
  | operand _ ih => exact ih
  | compare _ known same _ ihLeft ihRight =>
      rw [List.forall_mem_append, List.forall_mem_cons, same]
      exact ⟨ihLeft, kind_of_tighter _ known, ihRight⟩
  | comparison _ ih => exact ih
  | join _ known same _ ihLeft ihRight =>
      rw [List.forall_mem_append, List.forall_mem_cons, same]
      exact ⟨ihLeft, kind_of_looser _ known, ihRight⟩
  | noArgument => exact List.forall_mem_nil _
  | argument _ comma _ ihValue ihValues =>
      rw [List.forall_mem_append, List.forall_mem_append]
      exact ⟨ihValue, comma.kinds, ihValues⟩

/-- An operand, and so an expression, has a token. -/
theorem Yields.ne_nil {phrase : Phrase} {taken : List Token} (yields : Yields phrase taken)
    (noList : ∀ values, phrase ≠ .arguments values) : taken ≠ [] := by
  induction yields with
  | operand _ ih => exact ih (by intro values same; cases same)
  | comparison _ ih => exact ih (by intro values same; cases same)
  | compare | join => exact List.append_ne_nil_of_right_ne_nil _ (List.cons_ne_nil _ _)
  | noArgument => exact absurd rfl (noList [])
  | argument => exact absurd rfl (noList _)
  | _ => exact List.cons_ne_nil _ _

theorem IsExpression.ne_nil {value : Expr} {taken : List Token}
    (expression : IsExpression value taken) : taken ≠ [] :=
  Yields.ne_nil expression (by intro values same; cases same)

theorem Derives.ne_nil {value : Stmt} {taken follow : List Token}
    (derives : Derives (.statement value) taken follow) : taken ≠ [] := by
  cases derives with
  | evaluate expression => exact expression.ne_nil
  | _ => exact List.cons_ne_nil _ _

/-! ### Blocks open after colons -/

def OpensAfterColons (tokens : List Token) : Prop :=
  ∀ before token after, tokens = before ++ token :: after → token.kind = .indent →
    ∃ front colon, before = front ++ [colon] ∧ colon.kind = .symbol .colon

/-- Tokens as they can stand in a program: all of them are of its kinds, and blocks open after
colons. -/
structure Proper (tokens : List Token) : Prop where
  kinds : ∀ token ∈ tokens, token.kind ∈ programKinds
  opens : OpensAfterColons tokens

theorem Proper.append {front back : List Token} (properFront : Proper front)
    (properBack : Proper back) : Proper (front ++ back) where
  kinds := List.forall_mem_append.mpr ⟨properFront.kinds, properBack.kinds⟩
  opens := by
    intro before token after split opening
    rcases List.append_eq_append_iff.mp split with ⟨more, rfl, rest⟩ | ⟨more, rfl, rest⟩
    · obtain ⟨most, colon, rfl, kind⟩ := properBack.opens more token after rest opening
      exact ⟨front ++ most, colon, (List.append_assoc _ _ _).symm, kind⟩
    · cases more with
      | nil =>
          obtain ⟨most, colon, nothing, _⟩ := properBack.opens [] token after rest.symm opening
          cases most <;> cases nothing
      | cons first more =>
          cases rest
          exact properFront.opens before token more rfl opening

theorem proper_of_kinds {tokens : List Token}
    (kinds : ∀ token ∈ tokens, token.kind ∈ programKinds ∧ token.kind ≠ .indent) :
    Proper tokens where
  kinds := fun token member => (kinds token member).1
  opens := by
    rintro before token after rfl opening
    exact absurd opening (kinds token (List.mem_append_right _ List.mem_cons_self)).2

theorem proper_nil : Proper [] :=
  proper_of_kinds (List.forall_mem_nil _)

theorem Proper.cons {token : Token} {rest : List Token} {kind : Kind} (same : token.kind = kind)
    (known : kind ∈ programKinds ∧ kind ≠ .indent) (proper : Proper rest) :
    Proper (token :: rest) := by
  have single : Proper [token] := by
    apply proper_of_kinds
    rw [List.forall_mem_singleton, same]
    exact known
  exact single.append proper

theorem proper_single {token : Token} {kind : Kind} (same : token.kind = kind)
    (known : kind ∈ programKinds ∧ kind ≠ .indent) : Proper [token] :=
  proper_nil.cons same known

theorem proper_opening {colon opening : Token} (colonKind : colon.kind = .symbol .colon)
    (openingKind : opening.kind = .indent) : Proper [colon, opening] where
  kinds := by
    simp only [List.forall_mem_cons, colonKind, openingKind]
    exact ⟨by decide, by decide, List.forall_mem_nil _⟩
  opens := by
    intro before token after split isOpening
    cases before with
    | nil =>
        cases split
        rw [colonKind] at isOpening
        cases isOpening
    | cons first before =>
        cases before with
        | nil =>
            cases split
            exact ⟨[], colon, rfl, colonKind⟩
        | cons second before =>
            simp only [List.cons_append, List.cons.injEq] at split
            have nothing := split.2.2
            cases before <;> cases nothing

theorem expressionKinds_proper :
    ∀ kind ∈ expressionKinds, kind ∈ programKinds ∧ kind ≠ .indent := by
  decide

theorem Yields.proper {phrase : Phrase} {taken : List Token} (yields : Yields phrase taken) :
    Proper taken :=
  proper_of_kinds fun token member => expressionKinds_proper token.kind (yields.kinds token member)

theorem IsCondition.proper {value : Expr} {taken : List Token}
    (condition : IsCondition value taken) : Proper taken := by
  cases condition with
  | mk openingKind expression closingKind =>
      exact (expression.proper.append (proper_single closingKind (by decide))).cons openingKind
        (by decide)

theorem Listing.proper {α : Type} {item : α → List Token → Prop} {values : List α}
    {taken : List Token} (listing : Listing item values taken)
    (items : ∀ value front, item value front → Proper front) : Proper taken := by
  induction listing with
  | nil => exact proper_nil
  | cons first comma _ ih =>
      have properComma := proper_of_kinds fun token member =>
        expressionKinds_proper token.kind (comma.kinds token member)
      exact (items _ _ first).append (properComma.append ih)

theorem IsParameter.proper (parameter : String) (taken : List Token)
    (isParameter : IsParameter parameter taken) : Proper taken := by
  cases isParameter with
  | mk kind => exact proper_single kind (by decide)

theorem IsField.proper (field : String × Expr) (taken : List Token)
    (isField : IsField field taken) : Proper taken := by
  cases isField with
  | mk keyKind colonKind expression =>
      exact (expression.proper.cons colonKind (by decide)).cons keyKind (by decide)

theorem Derives.proper {sentence : Sentence} {taken follow : List Token}
    (derives : Derives sentence taken follow) : Proper taken := by
  induction derives with
  | assign wordKind nameKind signKind value =>
      exact ((value.proper.cons signKind (by decide)).cons nameKind (by decide)).cons wordKind
        (by decide)
  | print wordKind openingKind arguments closingKind =>
      have inner := (arguments.proper.append (proper_single closingKind (by decide))).cons
        openingKind (by decide)
      rcases wordKind with wordKind | wordKind
      · exact inner.cons wordKind (by decide)
      · exact inner.cons wordKind (by decide)
  | branch wordKind condition _ _ _ ihBody ihArms ihOtherwise =>
      exact (condition.proper.append (ihBody.append (ihArms.append ihOtherwise))).cons wordKind
        (by decide)
  | count wordKind nameKind inKind rangeKind condition _ ihBody =>
      exact ((((condition.proper.append ihBody).cons rangeKind (by decide)).cons inKind
        (by decide)).cons nameKind (by decide)).cons wordKind (by decide)
  | loop wordKind condition _ ihBody =>
      exact (condition.proper.append ihBody).cons wordKind (by decide)
  | leave wordKind => exact proper_single wordKind (by decide)
  | next wordKind => exact proper_single wordKind (by decide)
  | define wordKind nameKind openingKind parameters closingKind _ ihBody =>
      have rest := (parameters.proper IsParameter.proper).append
        (ihBody.cons closingKind (by decide))
      exact ((rest.cons openingKind (by decide)).cons nameKind (by decide)).cons wordKind
        (by decide)
  | noResult wordKind => exact proper_single wordKind (by decide)
  | result wordKind value => exact value.proper.cons wordKind (by decide)
  | table wordKind nameKind signKind openingKind fields closingKind =>
      have rest := (fields.proper IsField.proper).append (proper_single closingKind (by decide))
      exact (((rest.cons openingKind (by decide)).cons signKind (by decide)).cons nameKind
        (by decide)).cons wordKind (by decide)
  | load wordKind libraryKind =>
      rcases libraryKind with libraryKind | libraryKind
      · exact (proper_single libraryKind (by decide)).cons wordKind (by decide)
      · exact (proper_single libraryKind (by decide)).cons wordKind (by decide)
  | evaluate value => exact value.proper
  | noStatement => exact proper_nil
  | statements _ _ ihFirst ihRest => exact ihFirst.append ihRest
  | body colonKind openingKind _ closingKind ihInner =>
      exact (proper_opening colonKind openingKind).append
        (ihInner.append (proper_single closingKind (by decide)))
  | noArm => exact proper_nil
  | arm wordKind condition _ _ ihBody ihArms =>
      exact (condition.proper.append (ihBody.append ihArms)).cons wordKind (by decide)
  | noOtherwise => exact proper_nil
  | otherwise wordKind _ ihBody => exact ihBody.cons wordKind (by decide)

end Grammar

end IndentScript
