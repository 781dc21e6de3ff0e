import IndentScript.Proofs.PrintedExpressions
import IndentScript.Proofs.TokenPlaces

/-!
Reading undoes printing: the source text of a printable program is cut up and read into that
program again, at every depth that the program does not exceed.

There are no tokens between statements, so it has to be shown of every reader that it stops where
its phrase ends. A statement stops before anything but an operator or a further branch, and no
statement starts with one of these.
-/

namespace IndentScript

open Piece (space word sign name quoted numeral tokensOf)

namespace Parser

/-! ### Blocks -/

private def leadKinds : List Kind :=
  [.keyword .localWord, .keyword .tableWord, .keyword .printlineWord, .keyword .ifWord,
    .keyword .forWord, .keyword .whileWord, .keyword .breakWord, .keyword .continueWord,
    .keyword .funcWord, .keyword .returnWord, .keyword .importWord] ++ startKinds

private theorem startsStatement_of_mem : ∀ kind ∈ leadKinds, StartsStatement kind := by
  decide

private theorem tokens_head : (statement : Stmt) → statement.isPrintable = true →
    ∃ token tokens, tokensOf 0 statement.head = token :: tokens ∧ token.kind ∈ leadKinds
  | .evaluate value, printable => by
      obtain ⟨token, tokens, start, member⟩ := tokens_pieces value printable
      exact ⟨token, tokens, start, List.mem_append_right _ member⟩
  | .assign _ value, _ => by
      cases value with
      | table fields => exact ⟨wordToken .tableWord, _, rfl, by decide⟩
      | _ => exact ⟨wordToken .localWord, _, rfl, by decide⟩
  | .print _, _ => ⟨wordToken .printlineWord, _, rfl, by decide⟩
  | .branch _ _ _ _, _ => ⟨wordToken .ifWord, _, rfl, by decide⟩
  | .count _ _ _, _ => ⟨wordToken .forWord, _, rfl, by decide⟩
  | .loop _ _, _ => ⟨wordToken .whileWord, _, rfl, by decide⟩
  | .leave, _ => ⟨wordToken .breakWord, _, rfl, by decide⟩
  | .next, _ => ⟨wordToken .continueWord, _, rfl, by decide⟩
  | .define _ _ _, _ => ⟨wordToken .funcWord, _, rfl, by decide⟩
  | .result (some _), _ => ⟨wordToken .returnWord, _, rfl, by decide⟩
  | .load _, _ => ⟨wordToken .importWord, _, rfl, by decide⟩

/-- The statement is read from its tokens, whatever comes after it that does not go on it. -/
private def ReadsStatement (reader : Parser Stmt) (statement : Stmt) : Prop :=
  ∀ rest, AfterStatement rest →
    reader (tokensOf 0 statement.head ++ statement.innerTokens ++ rest) = .ok (statement, rest)

private theorem afterStatement_tokens {statements : List Stmt}
    (printable : Stmt.arePrintable statements = true) {rest : List Token}
    (after : AfterStatement rest) : AfterStatement (Stmt.tokens statements ++ rest) := by
  cases statements with
  | nil => exact after
  | cons statement others =>
      obtain ⟨token, tokens, start, member⟩ :=
        tokens_head statement (Bool.and_eq_true_iff.mp printable).1
      simp only [Stmt.tokens, start, List.cons_append]
      exact afterStatement_cons (startsStatement_of_mem _ member).1 _

private theorem length_tokens {statements : List Stmt}
    (printable : Stmt.arePrintable statements = true) :
    statements.length ≤ (Stmt.tokens statements).length := by
  induction statements with
  | nil => exact Nat.le_refl 0
  | cons statement others ih =>
      obtain ⟨first, rest⟩ := Bool.and_eq_true_iff.mp printable
      obtain ⟨token, tokens, start, _⟩ := tokens_head statement first
      have longer := ih rest
      simp only [Stmt.tokens, start, List.length_append, List.length_cons]
      omega

private theorem run_statementsWithin {stop : Token} (ends : EndsStatement stop.kind)
    (startsNone : ¬ StartsStatement stop.kind) {reader : Parser Stmt} (statements : List Stmt)
    (printable : Stmt.arePrintable statements = true)
    (reads : ∀ statement ∈ statements, ReadsStatement reader statement)
    (budget rest : List Token) (enough : statements.length ≤ budget.length) :
    statementsWithin stop.kind reader budget (Stmt.tokens statements ++ stop :: rest) =
      .ok (statements, stop :: rest) := by
  induction statements generalizing budget with
  | nil =>
      cases budget with
      | nil => rfl
      | cons spent budget =>
          change statementsWithin stop.kind reader (spent :: budget) (stop :: rest) = _
          rw [statementsWithin, run_bind (run_peek? _ _)]
          exact congrFun (if_pos rfl) (stop :: rest)
  | cons statement others ih =>
      cases budget with
      | nil => cases enough
      | cons spent budget =>
          obtain ⟨first, restPrintable⟩ := Bool.and_eq_true_iff.mp printable
          obtain ⟨token, tokens, start, member⟩ := tokens_head statement first
          have notStop : token.kind ≠ stop.kind := by
            intro same
            exact startsNone (same ▸ startsStatement_of_mem _ member)
          have peeked : ∀ more, peek? (tokensOf 0 statement.head ++ more) =
              .ok (some token, tokensOf 0 statement.head ++ more) := by
            intro more
            rw [start]
            rfl
          have readsFirst := reads statement List.mem_cons_self
            (Stmt.tokens others ++ stop :: rest)
            (afterStatement_tokens restPrintable (afterStatement_cons ends rest))
          have readsOthers := ih restPrintable
            (fun other member => reads other (List.mem_cons_of_mem statement member)) budget
            (Nat.le_of_succ_le_succ enough)
          simp only [List.append_assoc] at readsFirst
          rw [Stmt.tokens, List.append_assoc, List.append_assoc, statementsWithin,
            run_bind (peeked _)]
          simp only [notStop, if_false]
          rw [run_bind readsFirst, run_bind readsOthers]
          rfl

private theorem run_statementsUntil {stop : Token} (ends : EndsStatement stop.kind)
    (startsNone : ¬ StartsStatement stop.kind) {reader : Parser Stmt} {statements : List Stmt}
    (printable : Stmt.arePrintable statements = true)
    (reads : ∀ statement ∈ statements, ReadsStatement reader statement) (rest : List Token) :
    statementsUntil stop.kind reader (Stmt.tokens statements ++ stop :: rest) =
      .ok (statements, stop :: rest) := by
  have enough : statements.length ≤ (Stmt.tokens statements ++ stop :: rest).length := by
    have longer := length_tokens printable
    rw [List.length_append]
    omega
  exact run_statementsWithin ends startsNone statements printable reads _ rest enough

/-- The statements are read as a colon and a block, whatever comes after them. -/
private def ReadsBody (reader : Parser Stmt) (statements : Block) : Prop :=
  ∀ rest, body reader (signToken .colon :: (enclosed (Stmt.tokens statements) ++ rest)) =
    .ok (statements, rest)

private theorem readsBody {reader : Parser Stmt} {statements : Block}
    (printable : Stmt.arePrintable statements = true)
    (reads : ∀ statement ∈ statements, ReadsStatement reader statement) :
    ReadsBody reader statements := by
  intro rest
  have found : statementsUntil .dedent reader (Stmt.tokens statements ++ Token.closing 0 :: rest) =
      .ok (statements, Token.closing 0 :: rest) :=
    @run_statementsUntil (Token.closing 0) (by decide) (by decide) reader statements printable reads
      rest
  have opened : ∀ more, expect .indent (Token.opening 0 :: more) = .ok (Token.opening 0, more) :=
    run_expect rfl
  have closed : expect .dedent (Token.closing 0 :: rest) = .ok (Token.closing 0, rest) :=
    run_expect rfl rest
  rw [body, run_bind (run_expectSign .colon _), enclosed, List.cons_append, List.cons_append,
    List.append_assoc, List.singleton_append, block, run_bind (opened _), run_bind found,
    run_bind closed]
  rfl

/-! ### Statements -/

private theorem run_condition {depth : Nat} {test : Expr} (printable : test.isPrintable = true)
    (deep : test.nesting ≤ depth) (rest : List Token) :
    condition (expression (depth + 1)) (signToken .openParen ::
      (tokensOf 0 test.pieces ++ signToken .closeParen :: rest)) = .ok (test, rest) := by
  have closing : AfterExpression (signToken .closeParen :: rest) :=
    afterExpression_sign ⟨rfl, rfl⟩ rest
  have found := run_expression printable deep closing
  rw [condition, run_bind (run_expectSign .openParen _), run_bind found,
    run_bind (run_expectSign .closeParen rest)]
  rfl

private theorem tokensOf_conditionPieces (keyword : Keyword) (test : Expr) (rest : List Token) :
    tokensOf 0 (conditionPieces keyword test) ++ rest = wordToken keyword ::
      signToken .openParen :: (tokensOf 0 test.pieces ++ signToken .closeParen ::
        signToken .colon :: rest) := by
  simp only [conditionPieces, List.cons_append, List.append_assoc, tokensOf_word, tokensOf_space,
    tokensOf_sign, tokensOf_append, tokensOf_nil, List.nil_append]

private theorem readsItem_field {depth : Nat} {field : String × Expr}
    (printable : field.2.isPrintable = true) (deep : field.2.nesting ≤ depth) :
    ReadsItem (tableField (expression (depth + 1))) .closeBrace field (fieldPieces field) := by
  refine ⟨⟨stringToken field.1, _, rfl, Kind.noConfusion⟩, ?_⟩
  intro rest after
  have taken : ∀ more, expect .string (stringToken field.1 :: more) =
      .ok (stringToken field.1, more) := run_expect rfl
  rw [fieldPieces, tokensOf_quoted, tokensOf_sign, tokensOf_space, List.cons_append,
    List.cons_append, tableField, run_bind (taken _), run_bind (run_expectSign .colon _),
    run_bind (run_expression printable deep after)]
  rfl

private theorem readsItem_name (identifier : String) :
    ReadsItem Parser.identifier .closeParen identifier [name identifier] :=
  ⟨⟨nameToken identifier, [], rfl, Kind.noConfusion⟩, fun rest _ => run_identifier identifier rest⟩

private theorem nesting_le_deepest {value : Expr} {values : List Expr} (member : value ∈ values) :
    value.nesting ≤ Expr.deepest values := by
  induction values with
  | nil => cases member
  | cons other rest ih =>
      rw [Expr.deepest]
      rcases List.mem_cons.mp member with rfl | inRest
      · exact Nat.le_max_left _ _
      · exact Nat.le_trans (ih inRest) (Nat.le_max_right _ _)

private theorem reads_print {depth : Nat} {arguments : List Expr} (reader : Parser Stmt)
    (printable : Expr.arePrintable arguments = true) (deep : Expr.deepest arguments ≤ depth) :
    ReadsStatement (statementOf (expression (depth + 1)) reader) (.print arguments) := by
  intro rest _
  have found := run_argumentsOf arguments (run_arguments arguments printable depth deep) rest
  simp only [Stmt.head, Stmt.innerTokens, List.cons_append, List.append_assoc, tokensOf_word,
    tokensOf_sign, tokensOf_append, tokensOf_nil, List.nil_append]
  have dispatch : ∀ more, statementOf (expression (depth + 1)) reader
      (wordToken .printlineWord :: more) =
        (argumentsOf (expression (depth + 1)) >>= fun found => pure (Stmt.print found)) more :=
    fun _ => rfl
  rw [dispatch, run_bind found]
  rfl

private theorem reads_table {depth : Nat} {fields : Entries Expr} (identifier : String)
    (reader : Parser Stmt) (distinct : (Entries.names fields).Nodup)
    (printable : ∀ field ∈ fields, field.2.isPrintable = true)
    (deep : Expr.deepest (fields.map Prod.snd) ≤ depth) :
    ReadsStatement (statementOf (expression (depth + 1)) reader)
      (.assign identifier (.table fields)) := by
  intro rest _
  have reads : ∀ field ∈ fields, ReadsItem (tableField (expression (depth + 1))) .closeBrace field
      (fieldPieces field) := by
    intro field member
    have inside : field.2 ∈ fields.map Prod.snd := List.mem_map_of_mem member
    exact readsItem_field (printable field member) (Nat.le_trans (nesting_le_deepest inside) deep)
  have found := @run_listed _ .closeBrace ⟨rfl, rfl⟩ (by decide) _ _ fields reads rest
  simp only [Stmt.head, Stmt.innerTokens, List.cons_append, List.append_assoc, tokensOf_word,
    tokensOf_space, tokensOf_name, tokensOf_sign, tokensOf_append, tokensOf_nil, List.nil_append]
  have dispatch : ∀ more, statementOf (expression (depth + 1)) reader
      (wordToken .tableWord :: more) = tableDefinition (expression (depth + 1)) (wordToken .tableWord :: more) :=
    fun _ => rfl
  rw [dispatch, tableDefinition, run_bind (run_expectWord .tableWord _),
    run_bind (run_identifier _ _), run_bind (run_expectSign .assign _), run_bind (run_expectSign .openBrace _), run_bind found,
    Entries.ofPairs_of_nodup distinct]
  rfl

private theorem reads_assign {depth : Nat} {value : Expr} (identifier : String)
    (reader : Parser Stmt) (printable : value.isPrintable = true) (deep : value.nesting ≤ depth) :
    ReadsStatement (statementOf (expression (depth + 1)) reader) (.assign identifier value) := by
  intro rest after
  have found := run_expression printable deep after.afterExpression
  -- A table would be printed by a line of its own kind.
  have noTable : ∀ fields, value ≠ .table fields := by
    rintro fields rfl
    cases printable
  simp only [Stmt.head, Stmt.innerTokens, List.cons_append, List.append_assoc, tokensOf_word,
    tokensOf_space, tokensOf_name, tokensOf_sign, List.nil_append]
  have dispatch : ∀ more, statementOf (expression (depth + 1)) reader
      (wordToken .localWord :: more) = assignment (expression (depth + 1)) (wordToken .localWord :: more) :=
    fun _ => rfl
  rw [dispatch, assignment, run_bind (run_expectWord .localWord _), run_bind (run_identifier _ _),
    run_bind (run_expectSign .assign _), run_bind found]
  rfl

private theorem reads_evaluate {depth : Nat} {value : Expr} (reader : Parser Stmt)
    (printable : value.isPrintable = true) (deep : value.nesting ≤ depth) :
    ReadsStatement (statementOf (expression (depth + 1)) reader) (.evaluate value) := by
  intro rest after
  have found := run_expression printable deep after.afterExpression
  obtain ⟨token, tokens, start, member⟩ := tokens_pieces value printable
  have others : ∀ more, statementOf (expression (depth + 1)) reader (token :: more) =
      (expression (depth + 1) >>= fun value => pure (.evaluate value)) (token :: more) := by
    intro more
    obtain ⟨kind, payload, line⟩ := token
    simp only [startKinds, List.mem_cons, List.not_mem_nil, or_false] at member
    rcases member with rfl | rfl | rfl | rfl | rfl
    all_goals rfl
  rw [start, List.cons_append] at found
  simp only [Stmt.head, Stmt.innerTokens, start, List.cons_append, List.append_nil]
  rw [others, run_bind found]
  rfl

private theorem reads_result {depth : Nat} {value : Expr} (reader : Parser Stmt)
    (printable : value.isPrintable = true) (deep : value.nesting ≤ depth) :
    ReadsStatement (statementOf (expression (depth + 1)) reader) (.result (some value)) := by
  intro rest after
  have found := run_expression printable deep after.afterExpression
  obtain ⟨token, tokens, start, member⟩ := tokens_pieces value printable
  have notEnd : token.kind ≠ .endOfSource :=
    (startsStatement_of_mem _ (List.mem_append_right _ member)).2.2
  rw [start, List.cons_append] at found
  simp only [Stmt.head, Stmt.innerTokens, tokensOf_word, tokensOf_space, start, List.cons_append,
    List.append_nil]
  have dispatch : ∀ more, statementOf (expression (depth + 1)) reader
      (wordToken .returnWord :: more) = Parser.result (expression (depth + 1)) (wordToken .returnWord :: more) :=
    fun _ => rfl
  rw [dispatch, Parser.result, run_bind (run_expectWord .returnWord _),
    run_bind (run_peek? _ _)]
  simp only [notEnd, if_false]
  rw [run_bind found]
  rfl

private theorem reads_load (library : String) (inner : Parser Expr) (reader : Parser Stmt) :
    ReadsStatement (statementOf inner reader) (.load library) :=
  fun _ _ => rfl

private theorem reads_count {depth : Nat} {limit : Expr} {repeated : Block} {reader : Parser Stmt}
    (identifier : String) (printable : limit.isPrintable = true) (deep : limit.nesting ≤ depth)
    (reads : ReadsBody reader repeated) :
    ReadsStatement (statementOf (expression (depth + 1)) reader)
      (.count identifier limit repeated) := by
  intro rest _
  have dispatch : ∀ more, statementOf (expression (depth + 1)) reader (wordToken .forWord :: more) =
      counting (expression (depth + 1)) reader (wordToken .forWord :: more) := fun _ => rfl
  simp only [Stmt.head, Stmt.innerTokens, List.cons_append, List.append_assoc, tokensOf_word,
    tokensOf_space, tokensOf_name, tokensOf_sign, tokensOf_append, tokensOf_nil, List.nil_append]
  rw [dispatch, counting, run_bind (run_expectWord .forWord _), run_bind (run_identifier _ _),
    run_bind (run_expectWord .inWord _), run_bind (run_expectWord .rangeWord _),
    run_bind (run_condition printable deep _), run_bind (reads rest)]
  rfl

private theorem reads_loop {depth : Nat} {test : Expr} {repeated : Block} {reader : Parser Stmt}
    (printable : test.isPrintable = true) (deep : test.nesting ≤ depth)
    (reads : ReadsBody reader repeated) :
    ReadsStatement (statementOf (expression (depth + 1)) reader) (.loop test repeated) := by
  intro rest _
  have dispatch : ∀ more, statementOf (expression (depth + 1)) reader
      (wordToken .whileWord :: more) =
        looping (expression (depth + 1)) reader (wordToken .whileWord :: more) := fun _ => rfl
  rw [Stmt.head, Stmt.innerTokens, List.append_assoc, tokensOf_conditionPieces, dispatch, looping,
    run_bind (run_expectWord .whileWord _), run_bind (run_condition printable deep _),
    run_bind (reads rest)]
  rfl

private theorem reads_define {inner : Parser Expr} {statements : Block} {reader : Parser Stmt}
    (identifier : String) (parameters : List String)
    (reads : ReadsBody reader statements) :
    ReadsStatement (statementOf inner reader) (.define identifier parameters statements) := by
  intro rest _
  have found : ∀ more, listed .closeParen Parser.identifier (tokensOf 0 (commaSeparated
      (parameters.map fun parameter => [name parameter])) ++ signToken .closeParen :: more) =
        .ok (parameters, more) :=
    run_listed ⟨rfl, rfl⟩ (by decide) parameters fun parameter _ => readsItem_name parameter
  have dispatch : ∀ more, statementOf inner reader (wordToken .funcWord :: more) =
      definition reader (wordToken .funcWord :: more) := fun _ => rfl
  simp only [Stmt.head, Stmt.innerTokens, List.cons_append, List.append_assoc, tokensOf_word,
    tokensOf_space, tokensOf_name, tokensOf_sign, tokensOf_append, tokensOf_nil, List.nil_append]
  rw [dispatch, definition, run_bind (run_expectWord .funcWord _), run_bind (run_identifier _ _),
    run_bind (run_expectSign .openParen _), run_bind (found _), run_bind (reads rest)]
  rfl

private theorem length_armTokens (arms : List (Expr × Block)) :
    arms.length ≤ (Stmt.armTokens arms).length := by
  induction arms with
  | nil => exact Nat.le_refl 0
  | cons arm rest ih =>
      simp only [Stmt.armTokens, tokensOf_conditionPieces, List.length_append, List.length_cons]
      omega

/-- The last block of a branching statement and what comes after it do not go on its arms. -/
private theorem otherwiseTokens_head (otherwise : Option Block) {rest : List Token}
    (after : AfterStatement rest) :
    ∀ token ∈ (Stmt.otherwiseTokens otherwise ++ rest).head?, token.kind ≠ .keyword .elifWord := by
  intro token member
  cases otherwise with
  | none => exact (after token member).2.1
  | some last =>
      cases member
      decide

/-- The arms are read from their tokens, whatever comes after them that is no further arm. -/
private def ReadsArms (inner : Parser Expr) (reader : Parser Stmt) (arms : List (Expr × Block)) :
    Prop :=
  ∀ budget rest : List Token, arms.length ≤ budget.length →
    (∀ token ∈ rest.head?, token.kind ≠ .keyword .elifWord) →
      armsWithin inner reader budget (Stmt.armTokens arms ++ rest) = .ok (arms, rest)

private theorem run_armsWithin_nil (inner : Parser Expr) (reader : Parser Stmt)
    (budget : List Token) {rest : List Token}
    (noArm : ∀ token ∈ rest.head?, token.kind ≠ .keyword .elifWord) :
    armsWithin inner reader budget rest = .ok ([], rest) := by
  cases budget with
  | nil => rfl
  | cons spent budget =>
      rw [armsWithin, run_bind (run_isAt_of_ne noArm)]
      rfl

private theorem reads_branch {depth : Nat} {test : Expr} {statements : Block}
    {arms : List (Expr × Block)} {otherwise : Option Block} {reader : Parser Stmt}
    (printable : test.isPrintable = true) (deep : test.nesting ≤ depth)
    (reads : ReadsBody reader statements)
    (readsArms : ReadsArms (expression (depth + 1)) reader arms)
    (readsOtherwise : ∀ last ∈ otherwise, ReadsBody reader last) :
    ReadsStatement (statementOf (expression (depth + 1)) reader)
      (.branch test statements arms otherwise) := by
  intro rest after
  have dispatch : ∀ more, statementOf (expression (depth + 1)) reader (wordToken .ifWord :: more) =
      branching (expression (depth + 1)) reader (wordToken .ifWord :: more) := fun _ => rfl
  have enough : arms.length ≤
      (Stmt.armTokens arms ++ (Stmt.otherwiseTokens otherwise ++ rest)).length := by
    have longer := length_armTokens arms
    rw [List.length_append]
    omega
  have found := readsArms _ _ enough (otherwiseTokens_head otherwise after)
  rw [Stmt.head, Stmt.innerTokens, List.append_assoc, List.append_assoc, List.append_assoc,
    tokensOf_conditionPieces, dispatch, branching, run_bind (run_expectWord .ifWord _),
    run_bind (run_condition printable deep _), run_bind (reads _), run_bind (run_get _),
    run_bind found]
  cases otherwise with
  | none =>
      exact run_bind (run_isAt_of_ne fun token member => (after token member).2.2)
  | some last =>
      rw [Stmt.otherwiseTokens, tokensOf_word, tokensOf_sign, tokensOf_nil, List.append_assoc,
        List.cons_append, List.singleton_append, run_bind (run_isAt_word _ _), if_pos rfl,
        run_bind (run_advance _ _), run_bind (readsOtherwise last rfl rest)]
      rfl

private theorem ReadsArms.cons {depth : Nat} {test : Expr} {statements : Block}
    {arms : List (Expr × Block)} {reader : Parser Stmt} (printable : test.isPrintable = true)
    (deep : test.nesting ≤ depth) (reads : ReadsBody reader statements)
    (others : ReadsArms (expression (depth + 1)) reader arms) :
    ReadsArms (expression (depth + 1)) reader ((test, statements) :: arms) := by
  intro budget rest enough noArm
  cases budget with
  | nil => cases enough
  | cons spent budget =>
      rw [Stmt.armTokens, List.append_assoc, List.append_assoc, tokensOf_conditionPieces,
        armsWithin, run_bind (run_isAt_word _ _), if_pos rfl, run_bind (run_advance _ _),
        run_bind (run_condition printable deep _), run_bind (reads _),
        run_bind (others budget rest (Nat.le_of_succ_le_succ enough) noArm)]
      rfl

private theorem nesting_pos (phrase : Stmt) : 0 < phrase.nesting := by
  cases phrase with
  | assign identifier value => cases value <;> exact Nat.succ_pos _
  | result value => cases value <;> exact Nat.succ_pos _
  | _ => exact Nat.succ_pos _

mutual

private theorem reads_statement : (phrase : Stmt) → phrase.isPrintable = true →
    ∀ depth, phrase.nesting ≤ depth + 1 → ReadsStatement (statement (depth + 1)) phrase
  | .print arguments, printable, depth, deep =>
      reads_print (statement depth) printable (Nat.le_of_succ_le_succ deep)
  | .assign identifier value, printable, depth, deep => by
      cases value with
      | table fields =>
          simp only [Stmt.isPrintable, Bool.and_eq_true, decide_eq_true_eq, List.all_eq_true]
            at printable
          exact reads_table identifier (statement depth) printable.1.2
            (fun field member => (printable.2 field member).2) (Nat.le_of_succ_le_succ deep)
      | _ =>
          simp only [Stmt.isPrintable, Bool.and_eq_true] at printable
          exact reads_assign identifier (statement depth) printable.2 (Nat.le_of_succ_le_succ deep)
  | .branch test statements arms otherwise, printable, depth, deep => by
      simp only [Stmt.isPrintable, Bool.and_eq_true] at printable
      obtain ⟨⟨⟨testPrintable, _, bodyPrintable⟩, armsPrintable⟩, otherwisePrintable⟩ := printable
      rw [Stmt.nesting] at deep
      exact reads_branch testPrintable (by omega)
        (readsBody bodyPrintable (reads_statements statements bodyPrintable depth (by omega)))
        (reads_arms arms armsPrintable depth (by omega))
        (reads_otherwise otherwise otherwisePrintable depth (by omega))
  | .count identifier limit statements, printable, depth, deep => by
      simp only [Stmt.isPrintable, Bool.and_eq_true] at printable
      rw [Stmt.nesting] at deep
      exact reads_count identifier printable.1.2 (by omega)
        (readsBody printable.2.2 (reads_statements statements printable.2.2 depth (by omega)))
  | .loop test statements, printable, depth, deep => by
      simp only [Stmt.isPrintable, Bool.and_eq_true] at printable
      rw [Stmt.nesting] at deep
      exact reads_loop printable.1 (by omega)
        (readsBody printable.2.2 (reads_statements statements printable.2.2 depth (by omega)))
  | .leave, _, _, _ => fun _ _ => rfl
  | .next, _, _, _ => fun _ _ => rfl
  | .define identifier parameters statements, printable, depth, deep => by
      simp only [Stmt.isPrintable, Bool.and_eq_true] at printable
      rw [Stmt.nesting] at deep
      exact reads_define identifier parameters
        (readsBody printable.2.2 (reads_statements statements printable.2.2 depth (by omega)))
  | .result (some value), printable, depth, deep =>
      reads_result (statement depth) printable (Nat.le_of_succ_le_succ deep)
  | .load library, _, depth, _ => reads_load library (expression (depth + 1)) (statement depth)
  | .evaluate value, printable, depth, deep =>
      reads_evaluate (statement depth) printable (Nat.le_of_succ_le_succ deep)

private theorem reads_statements : (statements : List Stmt) →
    Stmt.arePrintable statements = true → ∀ depth, Stmt.deepest statements ≤ depth →
      ∀ phrase ∈ statements, ReadsStatement (statement depth) phrase
  | [], _, _, _ => List.forall_mem_nil _
  | phrase :: rest, printable, depth, deep => by
      simp only [Stmt.arePrintable, Bool.and_eq_true] at printable
      rw [Stmt.deepest] at deep
      have positive : 0 < phrase.nesting := nesting_pos phrase
      obtain ⟨depth, rfl⟩ : ∃ less, depth = less + 1 := ⟨depth - 1, by omega⟩
      have first := reads_statement phrase printable.1 depth (by omega)
      have others := reads_statements rest printable.2 (depth + 1) (by omega)
      exact List.forall_mem_cons.mpr ⟨first, others⟩

private theorem reads_arms : (arms : List (Expr × List Stmt)) →
    Stmt.armsArePrintable arms = true → ∀ depth, Stmt.deepestArm arms ≤ depth →
      ReadsArms (expression (depth + 1)) (statement depth) arms
  | [], _, depth, _ => fun budget _ _ noArm =>
      run_armsWithin_nil (expression (depth + 1)) (statement depth) budget noArm
  | (test, statements) :: rest, printable, depth, deep => by
      simp only [Stmt.armsArePrintable, Bool.and_eq_true] at printable
      obtain ⟨⟨testPrintable, _, bodyPrintable⟩, restPrintable⟩ := printable
      rw [Stmt.deepestArm] at deep
      exact ReadsArms.cons testPrintable (by omega)
        (readsBody bodyPrintable (reads_statements statements bodyPrintable depth (by omega)))
        (reads_arms rest restPrintable depth (by omega))

private theorem reads_otherwise : (otherwise : Option (List Stmt)) →
    Stmt.otherwiseIsPrintable otherwise = true →
      ∀ depth, Stmt.deepestOtherwise otherwise ≤ depth →
        ∀ last ∈ otherwise, ReadsBody (statement depth) last
  | none, _, _, _ => fun _ member => by cases member
  | some statements, printable, depth, deep => by
      obtain ⟨_, bodyPrintable⟩ := Bool.and_eq_true_iff.mp printable
      have reads := readsBody bodyPrintable
        (reads_statements statements bodyPrintable depth deep)
      intro last member
      cases member
      exact reads

end

end Parser

theorem parseWithin_tokens {program : Program} (printable : program.isPrintable = true)
    {depth : Nat} (deep : program.nesting ≤ depth) :
    parseWithin depth (Stmt.tokens program.statements ++ [Token.final 0]) = .ok program := by
  have found : Parser.statementsUntil .endOfSource (Parser.statement depth)
      (Stmt.tokens program.statements ++ [Token.final 0]) =
        .ok (program.statements, [Token.final 0]) :=
    @Parser.run_statementsUntil (Token.final 0) (by decide) (by decide) _ _ printable
      (Parser.reads_statements program.statements printable depth deep) []
  have read : Parser.program depth (Stmt.tokens program.statements ++ [Token.final 0]) =
      .ok (program, [Token.final 0]) := by
    rw [Parser.program, Parser.run_bind found]
    rfl
  obtain ⟨first, rest, start⟩ := List.exists_cons_of_ne_nil
    (List.append_ne_nil_of_right_ne_nil (Stmt.tokens program.statements)
      (List.cons_ne_nil (Token.final 0) []))
  rw [start] at read ⊢
  change Except.bind (Parser.program depth (first :: rest)) _ = _
  rw [read]
  rfl

private theorem alike_unplaced (tokens : List Token) :
    AlikeLists (tokens.map Token.unplaced) tokens := by
  induction tokens with
  | nil => exact .nil
  | cons token rest ih => exact .cons ⟨rfl, rfl⟩ ih

/-- The source text of a printable program is read into that program. -/
theorem parse_tokenize_print (program : Program) (printable : program.isPrintable = true) :
    ∃ tokens, tokenize program.print = .ok tokens ∧
      ∀ depth, program.nesting ≤ depth → parseWithin depth tokens = .ok program := by
  obtain ⟨tokens, cut, sameTokens⟩ := tokenize_print program printable
  refine ⟨tokens, cut, ?_⟩
  intro depth deep
  have alike := alike_unplaced tokens
  rw [sameTokens] at alike
  exact parseWithin_eq_ok_of_alike alike (parseWithin_tokens printable deep)

def Program.countdown : Program :=
  ⟨[.define "step" ["n"] [.result (some (.binary (.variable "n") .minus (.literal (.int 1))))],
    .assign "limits" (.table [("low", .literal (.int 0)), ("high", .literal (.int 12))]),
    .assign "n" (.literal (.int 3)),
    .loop (.binary (.variable "n") .greater (.literal (.int 0)))
      [.branch (.binary (.variable "n") .equals (.literal (.int 2))) [.next]
        [(.literal (.bool false), [.leave])] (some [.print [.literal (.text "n"), .variable "n"]]),
       .assign "n" (.call "step" [.variable "n"])]]⟩

example : Program.countdown.print = String.join
    ["func step(n):\n", "    return ((n) - 1)\n",
      "table limits = \x7b\"low\": 0, \"high\": 12\x7d\n", "local n = 3\n", "while (((n) > 0)):\n", "    if (((n) == 2)):\n", "        continue\n",
      "    elif (False):\n", "        break\n", "    else:\n", "        printline(\"n\", (n))\n",
      "    local n = step((n))\n"] := by
  decide +kernel

theorem parse_tokenize_print_countdown :
    ∃ tokens, tokenize Program.countdown.print = .ok tokens ∧
      ∀ depth, Program.countdown.nesting ≤ depth →
        parseWithin depth tokens = .ok Program.countdown :=
  parse_tokenize_print Program.countdown (by decide +kernel)

end IndentScript
