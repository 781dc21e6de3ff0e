import IndentScript.Proofs.LoopRounds
import IndentScript.Proofs.UnlimitedReaders

/-!
Reading gets on and comes to an end, whatever the tokens are. They may be in any order, lack the end
of the source, or open and close blocks that do not match.

A reader that starts at a current token fails, or it gives a value and stands at a later place, at
most at the end of the list. Every loop of a reader gets on in the same way in each of its rounds, and
so does a reader that calls itself for the parts of a phrase. So the number of tokens that are left
bounds the rounds of the loops and the depth of the calls.
-/

namespace IndentScript

namespace Parser

section

variable {α : Type}

/-- From the given place in the tokens, the reader fails, or it gives a value and a later place, which
is in the list or at its end. -/
def Advances (reader : Parser α) (tokens : List Token) (position : Nat) : Prop :=
  (∃ failure, reader (tokens.drop position) = .error failure) ∨
    ∃ value next, reader (tokens.drop position) = .ok (value, tokens.drop next) ∧
      position < next ∧ next ≤ tokens.length

theorem Consumes.advances {reader : Parser α} (consumes : Consumes reader) (tokens : List Token)
    (position : Nat) : Advances reader tokens position := by
  cases read : reader (tokens.drop position) with
  | error failure => exact .inl ⟨failure, read⟩
  | ok found =>
      obtain ⟨value, rest⟩ := found
      obtain ⟨taken, split, nonempty⟩ := consumes _ _ _ read
      have some := List.length_pos_iff.mpr nonempty
      have lengths := congrArg List.length split
      rw [List.length_drop, List.length_append] at lengths
      have left : rest = tokens.drop (position + taken.length) := by
        rw [← List.drop_drop, split, List.drop_left]
      refine .inr ⟨value, position + taken.length, ?_, by omega, by omega⟩
      rw [read, left]

end

/-! ### Readers -/

section

variable {expressions : Parser Expr} {statements : Parser Stmt}

theorem consumes_call (sound : SoundExpression expressions) (callee : String) :
    Consumes (call expressions callee) := by
  intro tokens value rest success
  obtain ⟨values, opening, inner, closing, _, rfl, _, _, _, afterArguments⟩ :=
    argumentsOf_step sound success
  obtain ⟨_, rfl⟩ := pure_eq_ok afterArguments
  refine ⟨opening :: (inner ++ [closing]), ?_, List.cons_ne_nil _ _⟩
  rw [List.cons_append, List.append_assoc, List.singleton_append]

theorem consumes_block (sound : SoundStatement statements) : Consumes (block statements) := by
  intro tokens value rest success
  obtain ⟨opening, _, rfl, _, afterOpening⟩ := expect_step success
  obtain ⟨found, inner, _, rfl, _, afterFound⟩ := (sound_statementsUntil sound).step afterOpening
  obtain ⟨closing, _, rfl, _, afterClosing⟩ := expect_step afterFound
  obtain ⟨_, rfl⟩ := pure_eq_ok afterClosing
  refine ⟨opening :: (inner ++ [closing]), ?_, List.cons_ne_nil _ _⟩
  rw [List.cons_append, List.append_assoc, List.singleton_append]

end

/-- All readers get on from the given place, if the parts of phrases are read by the given readers. -/
structure ReadersAdvance (expressions : Parser Expr) (statements : Parser Stmt) (tokens : List Token)
    (position : Nat) : Prop where
  statement : Advances statements tokens position
  expression : Advances expressions tokens position
  logical : Advances (logical expressions) tokens position
  comparison : Advances (comparison expressions) tokens position
  term : Advances (term expressions) tokens position
  call : ∀ callee, Advances (call expressions callee) tokens position
  block : Advances (block statements) tokens position

/-- All loops of the readers end on the given tokens, and each as its reader says. -/
structure LoopsEnd (expressions : Parser Expr) (statements : Parser Stmt) (tokens : List Token) :
    Prop where
  arguments : EndsAs (gathering (nextListed .closeParen expressions)) [] tokens
    (listedWithin .closeParen expressions tokens tokens)
  parameters : EndsAs (gathering (nextListed .closeParen identifier)) [] tokens
    (listedWithin .closeParen identifier tokens tokens)
  fields : EndsAs (gathering (nextListed .closeBrace (tableField expressions))) [] tokens
    (listedWithin .closeBrace (tableField expressions) tokens tokens)
  arms : EndsAs (gathering (nextArm expressions statements)) [] tokens
    (armsWithin expressions statements tokens tokens)
  ofBlock : EndsAs (gathering (nextStatement .dedent statements)) [] tokens
    (statementsUntil .dedent statements tokens)
  ofProgram : EndsAs (gathering (nextStatement .endOfSource statements)) [] tokens
    (statementsUntil .endOfSource statements tokens)
  looser : ∀ first, EndsAs (joining Operator.logical? (comparison expressions)) first tokens
    (chainWithin Operator.logical? (comparison expressions) first tokens tokens)
  tighter : ∀ first, EndsAs (joining Operator.arithmetic? (term expressions)) first tokens
    (chainWithin Operator.arithmetic? (term expressions) first tokens tokens)

section

variable {expressions : Parser Expr} {statements : Parser Stmt}
  (soundExpressions : SoundExpression expressions) (soundStatements : SoundStatement statements)

include soundExpressions soundStatements

theorem readersAdvance_of_sound (tokens : List Token) (position : Nat) :
    ReadersAdvance expressions statements tokens position where
  statement := (consumes_of_soundStatement soundStatements).advances tokens position
  expression := (consumes_of_soundExpression soundExpressions).advances tokens position
  logical := ((consumes_comparison soundExpressions).chain _).advances tokens position
  comparison := (consumes_comparison soundExpressions).advances tokens position
  term := (consumes_term soundExpressions).advances tokens position
  call := fun callee => (consumes_call soundExpressions callee).advances tokens position
  block := (consumes_block soundStatements).advances tokens position

theorem loopsEnd_of_sound (tokens : List Token) : LoopsEnd expressions statements tokens := by
  have takesExpression := (consumes_of_soundExpression soundExpressions).takes
  have takesStatement := (consumes_of_soundStatement soundStatements).takes
  exact
    { arguments := listedWithin_endsAs _ takesExpression tokens
      parameters := listedWithin_endsAs _ takes_identifier tokens
      fields := listedWithin_endsAs _ takesExpression.tableField tokens
      arms := armsWithin_endsAs soundExpressions soundStatements tokens
      ofBlock := statementsUntil_endsAs _ takesStatement tokens
      ofProgram := statementsUntil_endsAs _ takesStatement tokens
      looser := fun first =>
        chainWithin_endsAs _ (consumes_comparison soundExpressions).takes first tokens
      tighter := fun first => chainWithin_endsAs _ (consumes_term soundExpressions).takes first tokens }

end

end Parser

/-- Whatever the tokens are and from every place in them: the readers fail or get on, and the loops end
after no more rounds than there are tokens left. That holds with every limit of the depth and without
one. The readers without a limit are the only ones that call themselves for the parts of a phrase, and
they are never too deep. With a limit a program is read in the same way, unless the limit is at most
the number of the tokens and is met. -/
theorem reading_advances_and_ends (tokens : List Token) (position : Nat) :
    (∀ depth inner,
      Parser.ReadersAdvance (Parser.expression depth) (Parser.statement inner) tokens position ∧
        Parser.LoopsEnd (Parser.expression depth) (Parser.statement inner) (tokens.drop position)) ∧
      Parser.ReadersAdvance (Parser.unlimited Parser.expression) (Parser.unlimited Parser.statement)
        tokens position ∧
      Parser.LoopsEnd (Parser.unlimited Parser.expression) (Parser.unlimited Parser.statement)
        (tokens.drop position) ∧
      (∀ expressions statements, Parser.Recursive expressions statements ↔
        expressions = Parser.unlimited Parser.expression ∧
          statements = Parser.unlimited Parser.statement) ∧
      (∀ rest, parseUnlimited tokens ≠ .error ⟨.tooDeep, rest⟩) ∧
      ∀ depth, parseWithin depth tokens = parseUnlimited tokens ∨
        depth ≤ tokens.length ∧ ∃ rest, parseWithin depth tokens = .error ⟨.tooDeep, rest⟩ := by
  have soundExpressions := Parser.sound_unlimited Parser.sound_expression
  have soundStatements := Parser.sound_unlimited Parser.sound_statement
  refine ⟨?_, Parser.readersAdvance_of_sound soundExpressions soundStatements tokens position,
    Parser.loopsEnd_of_sound soundExpressions soundStatements _, ?_,
    parseUnlimited_ne_tooDeep tokens, ?_⟩
  · intro depth inner
    have soundExpression := Parser.sound_expression depth
    have soundStatement := Parser.sound_statement inner
    exact ⟨Parser.readersAdvance_of_sound soundExpression soundStatement tokens position,
      Parser.loopsEnd_of_sound soundExpression soundStatement _⟩
  · intro expressions statements
    exact Parser.recursive_iff_eq_unlimited
  · intro depth
    exact parseWithin_eq_parseUnlimited_or_tooDeep depth tokens

end IndentScript
