import IndentScript.Machine.Session
import IndentScript.Proofs.HeldValues
import IndentScript.Proofs.SourceNames

/-!
Trees that come from source texts. Their expressions are built of numbers, texts, the constant
`False`, variables, calls, tables and the ten operators of the language, and no name that they bind
is spelled like a keyword.

The constant is `False` for both words: a word carries its spelling, and the text that would stand
for the other constant is all capitals. So wherever `True` stands in a program, at whatever depth, it
is read as `False`.
-/

namespace IndentScript

namespace Expr

def parts : Expr → List Expr
  | .binary left _ right => [left, right]
  | .table entries => entries.map Prod.snd
  | .call _ arguments => arguments
  | _ => []

inductive Within (part : Expr) : Expr → Prop where
  | whole : Within part part
  | deeper {inner outer : Expr} : inner ∈ outer.parts → Within part inner → Within part outer

inductive IsRead : Expr → Prop where
  | number (value : Int) : IsRead (.literal (.int value))
  | text (content : String) : IsRead (.literal (.text content))
  | falsehood : IsRead (.literal (.bool false))
  | variable (name : String) : IsRead (.variable name)
  | binary {left right : Expr} {operator : Operator} : IsRead left → operator ∈ Operator.all →
    IsRead right → IsRead (.binary left operator right)
  | table {entries : List (String × Expr)} : (∀ entry ∈ entries, IsRead entry.2) →
    IsRead (.table entries)
  | call {callee : String} {arguments : List Expr} : (∀ argument ∈ arguments, IsRead argument) →
    IsRead (.call callee arguments)

theorem IsRead.part {outer inner : Expr} (read : outer.IsRead) (member : inner ∈ outer.parts) :
    inner.IsRead := by
  cases read with
  | binary left _ right =>
      rcases List.mem_cons.mp member with rfl | last
      · exact left
      · rw [List.mem_singleton.mp last]
        exact right
  | table fields =>
      obtain ⟨entry, isEntry, rfl⟩ := List.mem_map.mp member
      exact fields entry isEntry
  | call arguments => exact arguments inner member
  | _ => cases member

theorem IsRead.within {part whole : Expr} (read : whole.IsRead) (within : part.Within whole) :
    part.IsRead := by
  induction within with
  | whole => exact read
  | deeper member _ ih => exact ih (read.part member)

end Expr

theorem Operator.mem_all_of_mem_tighter : ∀ operator ∈ tighter, operator ∈ all := by
  decide

theorem Operator.mem_all_of_mem_looser : ∀ operator ∈ looser, operator ∈ all := by
  decide

namespace Stmt

/-- The expressions that stand in a statement itself, in no block of it. -/
def expressions : Stmt → List Expr
  | .print arguments => arguments
  | .assign _ value | .evaluate value => [value]
  | .branch condition _ arms _ => condition :: arms.map Prod.fst
  | .count _ limit _ => [limit]
  | .loop condition _ => [condition]
  | .result value => value.toList
  | _ => []

def binds : Stmt → List String
  | .assign name _ | .count name _ _ => [name]
  | .define name parameters _ => name :: parameters
  | _ => []

/-- A statement as source texts have them, apart from its blocks. -/
structure IsRead (statement : Stmt) : Prop where
  expressions : ∀ expression ∈ statement.expressions, expression.IsRead
  names : ∀ name ∈ statement.binds, Keyword.ofSpelling? name = none

/-- The statements in the block, at any depth, are as source texts have them. -/
def AreRead (block : Block) : Prop :=
  ∀ statement : Stmt, statement.Occurs block → statement.IsRead

theorem AreRead.isRead {block : Block} (read : AreRead block) {statement : Stmt}
    (member : statement ∈ block) : statement.IsRead :=
  read statement (.here member)

theorem AreRead.body {block : Block} (read : AreRead block) {statement : Stmt}
    (member : statement ∈ block) {inner : Block} (isBody : inner ∈ statement.bodies) :
    AreRead inner :=
  fun part occurs => read part (.deeper member isBody occurs)

theorem areRead_nil : AreRead [] := by
  intro statement occurs
  cases occurs with
  | here member => cases member
  | deeper member => cases member

theorem AreRead.mono {block others : Block} (read : AreRead others) (subset : block ⊆ others) :
    AreRead block :=
  fun statement occurs => read statement (occurs.mono subset)

end Stmt

/-! ### From tokens to trees -/

namespace Grammar

variable {taken follow tokens : List Token}

def Phrase.expressions : Phrase → List Expr
  | .operand value | .comparison value | .expression value => [value]
  | .arguments values => values

/-- The constant of a number or a text. -/
theorem isRead_literalOf {token : Token} (kind : token.kind = .number ∨ token.kind = .string)
    (carries : token.kind.Carries token.payload) :
    (Expr.literal (Parser.literalOf token)).IsRead := by
  unfold Parser.literalOf
  rcases kind with kind | kind
  · rw [kind] at carries
    obtain ⟨value, payload⟩ := carries
    rw [payload]
    exact .number value
  · rw [kind] at carries
    obtain ⟨content, payload⟩ := carries
    rw [payload]
    exact .text content

/-- The spellings of the two constants are not all capitals. -/
theorem payload_ne_capitals {token : Token}
    (kind : token.kind = .keyword .trueWord ∨ token.kind = .keyword .falseWord)
    (carries : token.kind.Carries token.payload) : token.payload ≠ .text "TRUE" := by
  rcases kind with kind | kind
  · rw [kind] at carries
    rw [carries]
    decide
  · rw [kind] at carries
    rw [carries]
    decide

theorem Yields.isRead {phrase : Phrase} (yields : Yields phrase taken) (carrying : Carrying taken) :
    ∀ expression ∈ phrase.expressions, expression.IsRead := by
  induction yields with
  | constant kind =>
      exact List.forall_mem_singleton.mpr (isRead_literalOf kind (carrying _ List.mem_cons_self))
  | truth kind =>
      have other := payload_ne_capitals kind (carrying _ List.mem_cons_self)
      rw [decide_eq_false other]
      exact List.forall_mem_singleton.mpr .falsehood
  | «variable» => exact List.forall_mem_singleton.mpr (.variable _)
  | call _ _ _ _ ih =>
      obtain ⟨_, _, rest⟩ := List.forall_mem_cons.mp carrying |>.imp id List.forall_mem_cons.mp
      exact List.forall_mem_singleton.mpr (.call (ih (List.forall_mem_append.mp rest).1))
  | group _ _ _ ih =>
      have rest := (List.forall_mem_cons.mp carrying).2
      exact ih (List.forall_mem_append.mp rest).1
  | operand _ ih => exact ih carrying
  | comparison _ ih => exact ih carrying
  | compare _ known _ _ ihLeft ihRight =>
      obtain ⟨front, back⟩ := List.forall_mem_append.mp carrying
      have left := ihLeft front _ List.mem_cons_self
      have right := ihRight (List.forall_mem_cons.mp back).2 _ List.mem_cons_self
      exact List.forall_mem_singleton.mpr
        (.binary left (Operator.mem_all_of_mem_tighter _ known) right)
  | join _ known _ _ ihLeft ihRight =>
      obtain ⟨front, back⟩ := List.forall_mem_append.mp carrying
      have left := ihLeft front _ List.mem_cons_self
      have right := ihRight (List.forall_mem_cons.mp back).2 _ List.mem_cons_self
      exact List.forall_mem_singleton.mpr
        (.binary left (Operator.mem_all_of_mem_looser _ known) right)
  | noArgument => exact List.forall_mem_nil _
  | argument _ _ _ ihValue ihValues =>
      obtain ⟨front, rest⟩ := List.forall_mem_append.mp carrying
      have back := (List.forall_mem_append.mp rest).2
      exact List.forall_mem_cons.mpr ⟨ihValue front _ List.mem_cons_self, ihValues back⟩

theorem IsExpression.isRead {value : Expr} (expression : IsExpression value taken)
    (carrying : Carrying taken) : value.IsRead :=
  Yields.isRead expression carrying value List.mem_cons_self

theorem IsCondition.isRead {value : Expr} (condition : IsCondition value taken)
    (carrying : Carrying taken) : value.IsRead := by
  cases condition with
  | mk _ expression _ =>
      have rest := (List.forall_mem_cons.mp carrying).2
      exact expression.isRead (List.forall_mem_append.mp rest).1

/-- What every item has from its tokens, the items of a list have from theirs. -/
theorem Listing.forall_mem {α : Type} {item : α → List Token → Prop} {property : α → Prop}
    {values : List α} (listing : Listing item values taken)
    (items : ∀ value front, item value front → Carrying front → property value)
    (carrying : Carrying taken) : ∀ value ∈ values, property value := by
  induction listing with
  | nil => exact List.forall_mem_nil _
  | cons first _ _ ih =>
      obtain ⟨front, rest⟩ := List.forall_mem_append.mp carrying
      have back := (List.forall_mem_append.mp rest).2
      exact List.forall_mem_cons.mpr ⟨items _ _ first front, ih back⟩

/-- The text of an identifier is spelled like no keyword. -/
theorem ofSpelling?_identifier {name : Token} (kind : name.kind = .identifier)
    (carries : name.kind.Carries name.payload) :
    Keyword.ofSpelling? name.payload.asText = none := by
  rw [kind] at carries
  obtain ⟨word, payload, unknown⟩ := carries
  rw [payload]
  exact unknown

theorem IsParameter.ofSpelling? (parameter : String) (front : List Token)
    (isParameter : IsParameter parameter front) (carrying : Carrying front) :
    Keyword.ofSpelling? parameter = none := by
  cases isParameter with
  | mk kind => exact ofSpelling?_identifier kind (carrying _ List.mem_cons_self)

theorem IsField.isRead (field : String × Expr) (front : List Token) (isField : IsField field front)
    (carrying : Carrying front) : field.2.IsRead := by
  cases isField with
  | mk _ _ expression =>
      exact expression.isRead (List.forall_mem_cons.mp (List.forall_mem_cons.mp carrying).2).2

theorem Derives.arms_isRead {arms : List (Expr × Block)} (derives : Derives (.arms arms) taken follow)
    (carrying : Carrying taken) : ∀ arm ∈ arms, arm.1.IsRead := by
  induction arms generalizing taken with
  | nil => exact List.forall_mem_nil _
  | cons first others ih =>
      cases derives with
      | arm _ condition _ areOthers =>
          obtain ⟨ofTest, ofRest⟩ := List.forall_mem_append.mp (List.forall_mem_cons.mp carrying).2
          have ofOthers := (List.forall_mem_append.mp ofRest).2
          exact List.forall_mem_cons.mpr ⟨condition.isRead ofTest, ih areOthers ofOthers⟩

/-- A statement that is made of tokens of a source text. -/
theorem MadeOf.isRead {statement : Stmt} (made : MadeOf tokens (.statement statement))
    (carrying : Carrying tokens) : statement.IsRead := by
  obtain ⟨taken, _, derives, among⟩ := made
  replace carrying : Carrying taken := fun token member => carrying token (among member)
  have noNames : ∀ name ∈ ([] : List String), Keyword.ofSpelling? name = none :=
    List.forall_mem_nil _
  cases derives with
  | assign _ nameKind _ value =>
      obtain ⟨_, ofName, _, ofValue⟩ := by simpa only [Carrying, List.forall_mem_cons] using carrying
      exact ⟨List.forall_mem_singleton.mpr (value.isRead ofValue),
        List.forall_mem_singleton.mpr (ofSpelling?_identifier nameKind ofName)⟩
  | print _ _ arguments _ =>
      obtain ⟨_, _, rest⟩ := by simpa only [Carrying, List.forall_mem_cons] using carrying
      exact ⟨arguments.isRead (List.forall_mem_append.mp rest).1, noNames⟩
  | branch _ condition _ arms _ =>
      obtain ⟨ofTest, ofRest⟩ := List.forall_mem_append.mp (List.forall_mem_cons.mp carrying).2
      obtain ⟨ofArms, _⟩ := List.forall_mem_append.mp (List.forall_mem_append.mp ofRest).2
      have tests := List.forall_mem_map.mpr (arms.arms_isRead ofArms)
      exact ⟨List.forall_mem_cons.mpr ⟨condition.isRead ofTest, tests⟩, noNames⟩
  | count _ nameKind _ _ condition _ =>
      obtain ⟨_, ofName, _, _, rest⟩ := by
        simpa only [Carrying, List.forall_mem_cons] using carrying
      have limit := condition.isRead (List.forall_mem_append.mp rest).1
      exact ⟨List.forall_mem_singleton.mpr limit,
        List.forall_mem_singleton.mpr (ofSpelling?_identifier nameKind ofName)⟩
  | loop _ condition _ =>
      have rest := (List.forall_mem_cons.mp carrying).2
      have test := condition.isRead (List.forall_mem_append.mp rest).1
      exact ⟨List.forall_mem_singleton.mpr test, noNames⟩
  | define _ nameKind _ parameters _ _ =>
      obtain ⟨_, ofName, _, rest⟩ := by simpa only [Carrying, List.forall_mem_cons] using carrying
      have names := parameters.forall_mem IsParameter.ofSpelling? (List.forall_mem_append.mp rest).1
      exact ⟨List.forall_mem_nil _,
        List.forall_mem_cons.mpr ⟨ofSpelling?_identifier nameKind ofName, names⟩⟩
  | result _ value =>
      have ofValue := (List.forall_mem_cons.mp carrying).2
      exact ⟨List.forall_mem_singleton.mpr (value.isRead ofValue), noNames⟩
  | table _ nameKind _ _ fields _ =>
      obtain ⟨_, ofName, _, _, rest⟩ := by
        simpa only [Carrying, List.forall_mem_cons] using carrying
      have values := fields.forall_mem IsField.isRead (List.forall_mem_append.mp rest).1
      have entries := Entries.forall_mem_ofPairs values
      exact ⟨List.forall_mem_singleton.mpr (.table entries),
        List.forall_mem_singleton.mpr (ofSpelling?_identifier nameKind ofName)⟩
  | evaluate value => exact ⟨List.forall_mem_singleton.mpr (value.isRead carrying), noNames⟩
  | _ => exact ⟨List.forall_mem_nil _, noNames⟩

end Grammar

theorem Stmt.areRead_of_parseWithin {tokens : List Token} {depth : Nat} {program : Program}
    (carrying : Carrying tokens) (parsed : parseWithin depth tokens = .ok program) :
    AreRead program.statements :=
  fun _ occurs => (Grammar.MadeOf.occurs occurs (Grammar.madeOf_of_parseWithin parsed)).isRead carrying

theorem compile_eq_ok_iff [Limits] {source : String} {program : Program} :
    compile source = .ok program ↔
      ∃ tokens, tokenize source = .ok tokens ∧ parse tokens = .ok program := by
  unfold compile
  constructor
  · intro compiled
    cases lexed : tokenize source with
    | error fault =>
        rw [lexed] at compiled
        cases compiled
    | ok tokens =>
        rw [lexed] at compiled
        change (parse tokens).mapError Failure.syntactic = _ at compiled
        cases parsed : parse tokens with
        | error failure =>
            rw [parsed] at compiled
            cases compiled
        | ok found =>
            rw [parsed] at compiled
            cases compiled
            exact ⟨tokens, rfl, parsed⟩
  · rintro ⟨tokens, lexed, parsed⟩
    rw [lexed]
    change (parse tokens).mapError Failure.syntactic = _
    rw [parsed]
    rfl

theorem compile_eq_error [Limits] {source : String} {failure : Failure}
    (refused : compile source = .error failure) :
    (∃ fault, tokenize source = .error fault ∧ failure = .lexical fault) ∨
      ∃ tokens found, tokenize source = .ok tokens ∧ parse tokens = .error found ∧
        failure = .syntactic found := by
  unfold compile at refused
  cases lexed : tokenize source with
  | error fault =>
      rw [lexed] at refused
      cases refused
      exact .inl ⟨fault, rfl, rfl⟩
  | ok tokens =>
      rw [lexed] at refused
      change (parse tokens).mapError Failure.syntactic = _ at refused
      cases parsed : parse tokens with
      | error found =>
          rw [parsed] at refused
          cases refused
          exact .inr ⟨tokens, found, rfl, parsed, rfl⟩
      | ok program =>
          rw [parsed] at refused
          cases refused

theorem Stmt.areRead_of_compile [Limits] {source : String} {program : Program}
    (compiled : compile source = .ok program) : AreRead program.statements := by
  obtain ⟨tokens, lexed, parsed⟩ := compile_eq_ok_iff.mp compiled
  exact areRead_of_parseWithin (carrying_of_tokenize lexed) parsed

/-! ### Truth constants -/

theorem Parser.term_truth {token : Token}
    (kind : token.kind = .keyword .trueWord ∨ token.kind = .keyword .falseWord)
    (expression : Parser Expr) (rest : List Token) :
    (term expression).run (token :: rest) =
      .ok (.literal (.bool (token.payload = .text "TRUE")), rest) := by
  obtain ⟨sort, payload, line⟩ := token
  rcases kind with rfl | rfl
  · rfl
  · rfl

theorem Expr.IsRead.truth {value : Bool} (read : (Expr.literal (.bool value)).IsRead) :
    value = false := by
  cases read
  rfl

/-- In a program that comes from a source text both words for truth constants stand for `False`: as
an operand each of them is read as that constant, no other truth constant stands anywhere in the
program, and it evaluates to false. -/
theorem truth_constants_read_as_false [Limits] {source : String} {tokens : List Token} {nesting : Nat}
    {program : Program} (lexed : tokenize source = .ok tokens)
    (parsed : parseWithin nesting tokens = .ok program) :
    (∀ token ∈ tokens, token.kind = .keyword .trueWord ∨ token.kind = .keyword .falseWord →
      ∀ expression rest, (Parser.term expression).run (token :: rest) =
        .ok (.literal (.bool false), rest)) ∧
      ∀ statement : Stmt, statement.Occurs program.statements →
        ∀ whole ∈ statement.expressions, ∀ value, (Expr.literal (.bool value)).Within whole →
          value = false ∧ ∀ rounds depth machine,
            (Run.evaluate rounds (depth + 1) (.literal (.bool value))).run.run machine =
              (.ok (.bool false), machine) := by
  have carrying := carrying_of_tokenize lexed
  refine ⟨?_, ?_⟩
  · intro token member kind expression rest
    have other := Grammar.payload_ne_capitals kind (carrying token member)
    rw [Parser.term_truth kind, decide_eq_false other]
  · intro statement occurs whole member value within
    have read := (Stmt.areRead_of_parseWithin carrying parsed statement occurs).expressions whole
      member
    obtain rfl := (read.within within).truth
    exact ⟨rfl, fun _ _ _ => rfl⟩

def bothWords : String :=
  "if (True and 1):\n    f(1, False)"

def bothWordsTokens : List Token :=
  [⟨.keyword .ifWord, .text "if", 1⟩, ⟨.symbol .openParen, .text "(", 1⟩,
    ⟨.keyword .trueWord, .text "True", 1⟩, ⟨.keyword .andWord, .text "and", 1⟩,
    ⟨.number, .number 1, 1⟩, ⟨.symbol .closeParen, .text ")", 1⟩, ⟨.symbol .colon, .text ":", 1⟩,
    Token.opening 2, ⟨.identifier, .text "f", 2⟩, ⟨.symbol .openParen, .text "(", 2⟩,
    ⟨.number, .number 1, 2⟩, ⟨.symbol .comma, .text ",", 2⟩,
    ⟨.keyword .falseWord, .text "False", 2⟩, ⟨.symbol .closeParen, .text ")", 2⟩,
    Token.closing 2, Token.final 2]

def bothWordsCall : Expr :=
  .call "f" [.literal (.int 1), .literal (.bool false)]

def bothWordsProgram : Program :=
  ⟨[.branch (.binary (.literal (.bool false)) .and (.literal (.int 1))) [.evaluate bothWordsCall] []
    none]⟩

theorem truth_constants_bothWords :
    tokenize bothWords = .ok bothWordsTokens ∧
      parseWithin 10 bothWordsTokens = .ok bothWordsProgram ∧
      (∀ expression rest,
        (Parser.term expression).run (⟨.keyword .trueWord, .text "True", 1⟩ :: rest) =
          .ok (.literal (.bool false), rest)) ∧
      (Expr.literal (.bool false)).Within bothWordsCall ∧
      ∀ value, (Expr.literal (.bool value)).Within bothWordsCall → value = false := by
  have lexed : tokenize bothWords = .ok bothWordsTokens :=
    tokenize_eq_ok_iff.mpr ⟨by decide +kernel, by decide +kernel⟩
  have parsed : parseWithin 10 bothWordsTokens = .ok bothWordsProgram := rfl
  have result := truth_constants_read_as_false lexed parsed
  have occurs : (Stmt.evaluate bothWordsCall).Occurs bothWordsProgram.statements :=
    .deeper List.mem_cons_self List.mem_cons_self (.here List.mem_cons_self)
  refine ⟨lexed, parsed, result.1 _ (by decide) (.inl rfl), ?_, ?_⟩
  · exact .deeper (List.mem_cons_of_mem _ List.mem_cons_self) .whole
  · intro value within
    exact (result.2 _ occurs _ List.mem_cons_self value within).1

def printsTrueTokens : List Token :=
  [⟨.keyword .printlineWord, .text "printline", 1⟩, ⟨.symbol .openParen, .text "(", 1⟩,
    ⟨.keyword .trueWord, .text "True", 1⟩, ⟨.symbol .closeParen, .text ")", 1⟩, Token.final 1]

/-- To print `True` is to print `False`. -/
theorem runSource_printline_true :
    tokenize "printline(True)" = .ok printsTrueTokens ∧
      parse printsTrueTokens = .ok ⟨[.print [.literal (.bool false)]]⟩ ∧
      ((Machine.new {}).runSource "printline(True)").2.console.output = .plain "False \n" :=
  ⟨tokenize_eq_ok_iff.mpr ⟨by decide +kernel, by decide +kernel⟩, rfl, by decide +kernel⟩

end IndentScript
