import IndentScript.Proofs.PrintedLayout

/-!
Reading of printed expressions. An operand stops by itself, since every variable stands in
parentheses: no argument list can be taken for a part of it. An expression stops before anything
but an operator.
-/

namespace IndentScript

open Piece (space word sign name quoted numeral tokensOf)

/-! ### Tokens without a place -/

def wordToken (keyword : Keyword) : Token := ⟨.keyword keyword, .text keyword.spelling, 0⟩

def signToken (symbol : Symbol) : Token := ⟨.symbol symbol, .text symbol.spelling, 0⟩

def nameToken (identifier : String) : Token := ⟨.identifier, .text identifier, 0⟩

def stringToken (content : String) : Token := ⟨.string, .text content, 0⟩

theorem tokensOf_nil : tokensOf 0 [] = [] := rfl

theorem tokensOf_space (rest : List Piece) : tokensOf 0 (space :: rest) = tokensOf 0 rest := rfl

theorem tokensOf_word (keyword : Keyword) (rest : List Piece) :
    tokensOf 0 (word keyword :: rest) = wordToken keyword :: tokensOf 0 rest := rfl

theorem tokensOf_sign (symbol : Symbol) (rest : List Piece) :
    tokensOf 0 (sign symbol :: rest) = signToken symbol :: tokensOf 0 rest := rfl

theorem tokensOf_name (identifier : String) (rest : List Piece) :
    tokensOf 0 (name identifier :: rest) = nameToken identifier :: tokensOf 0 rest := rfl

theorem tokensOf_quoted (content : String) (rest : List Piece) :
    tokensOf 0 (quoted content :: rest) = stringToken content :: tokensOf 0 rest := rfl

theorem tokensOf_append (front back : List Piece) :
    tokensOf 0 (front ++ back) = tokensOf 0 front ++ tokensOf 0 back :=
  List.filterMap_append

theorem Expr.piecesEach_eq_map (expressions : List Expr) :
    Expr.piecesEach expressions = expressions.map Expr.pieces := by
  induction expressions with
  | nil => rfl
  | cons expression rest ih => rw [Expr.piecesEach, ih, List.map_cons]

theorem Operator.tokens_pieces {operator : Operator} (known : operator ∈ Operator.all) :
    ∃ token, tokensOf 0 operator.pieces = [token] ∧ token.kind = operator.kind := by
  simp only [all, List.mem_cons, List.not_mem_nil, or_false] at known
  rcases known with rfl | rfl | rfl | rfl | rfl | rfl | rfl | rfl | rfl | rfl
  all_goals exact ⟨_, rfl, rfl⟩

theorem Operator.level_of_mem {operator : Operator} (known : operator ∈ Operator.all) :
    arithmetic? operator.kind = some operator ∨
      arithmetic? operator.kind = none ∧ logical? operator.kind = some operator := by
  simp only [all, List.mem_cons, List.not_mem_nil, or_false] at known
  rcases known with rfl | rfl | rfl | rfl | rfl | rfl | rfl | rfl | rfl | rfl
  all_goals decide

namespace Entries

variable {α : Type}

private theorem set_of_not_mem {name : String} {entries : Entries α}
    (absent : name ∉ names entries) (value : α) :
    set name value entries = entries ++ [(name, value)] := by
  induction entries with
  | nil => rfl
  | cons head rest ih =>
      obtain ⟨key, held⟩ := head
      obtain ⟨different, absentInRest⟩ := not_or.mp fun found => absent (List.mem_cons.mpr found)
      rw [set, if_neg (Ne.symm different), ih absentInRest, List.cons_append]

private theorem foldl_set (pairs before : Entries α) (distinct : (names (before ++ pairs)).Nodup) :
    pairs.foldl (fun entries pair => set pair.1 pair.2 entries) before = before ++ pairs := by
  induction pairs generalizing before with
  | nil => exact (List.append_nil before).symm
  | cons pair rest ih =>
      obtain ⟨key, value⟩ := pair
      have split := distinct
      rw [names, List.map_append, List.map_cons, List.nodup_append] at split
      have absent : key ∉ names before := by
        intro member
        exact split.2.2 key member key List.mem_cons_self rfl
      have same : before ++ (key, value) :: rest = before ++ [(key, value)] ++ rest := by
        rw [List.append_assoc, List.singleton_append]
      rw [same] at distinct ⊢
      rw [List.foldl_cons, set_of_not_mem absent]
      exact ih (before ++ [(key, value)]) distinct

theorem ofPairs_of_nodup {pairs : Entries α} (distinct : (names pairs).Nodup) :
    ofPairs pairs = pairs :=
  foldl_set pairs [] distinct

end Entries

/-! ### Where a phrase ends -/

def EndsExpression (kind : Kind) : Prop :=
  Operator.arithmetic? kind = none ∧ Operator.logical? kind = none

def EndsStatement (kind : Kind) : Prop :=
  EndsExpression kind ∧ kind ≠ .keyword .elifWord ∧ kind ≠ .keyword .elseWord

/-- A kind that neither goes on a statement nor ends a block. -/
def StartsStatement (kind : Kind) : Prop :=
  EndsStatement kind ∧ kind ≠ .dedent ∧ kind ≠ .endOfSource

instance (kind : Kind) : Decidable (EndsExpression kind) :=
  inferInstanceAs (Decidable (_ ∧ _))

instance (kind : Kind) : Decidable (EndsStatement kind) :=
  inferInstanceAs (Decidable (_ ∧ _))

instance (kind : Kind) : Decidable (StartsStatement kind) :=
  inferInstanceAs (Decidable (_ ∧ _))

def AfterExpression (rest : List Token) : Prop :=
  ∀ token ∈ rest.head?, EndsExpression token.kind

def AfterStatement (rest : List Token) : Prop :=
  ∀ token ∈ rest.head?, EndsStatement token.kind

theorem AfterStatement.afterExpression {rest : List Token} (after : AfterStatement rest) :
    AfterExpression rest :=
  fun token member => (after token member).1

theorem afterStatement_cons {token : Token} (ends : EndsStatement token.kind)
    (rest : List Token) : AfterStatement (token :: rest) := by
  intro first member
  cases member
  exact ends

theorem afterExpression_sign {symbol : Symbol} (ends : EndsExpression (.symbol symbol))
    (rest : List Token) : AfterExpression (signToken symbol :: rest) := by
  intro token member
  cases member
  exact ends

namespace Parser

section

variable {α β : Type}

/-- A reader that succeeds hands over to the next one. -/
theorem run_bind {first : Parser α} {next : α → Parser β} {tokens rest : List Token} {value : α}
    (success : first tokens = .ok (value, rest)) : (first >>= next) tokens = next value rest := by
  change Except.bind (first tokens) (fun (value, rest) => next value rest) = next value rest
  rw [success]
  rfl

end

theorem run_get (tokens : List Token) :
    (get : Parser (List Token)) tokens = .ok (tokens, tokens) := rfl

theorem run_peek (token : Token) (rest : List Token) :
    peek (token :: rest) = .ok (token, token :: rest) := rfl

theorem run_peek? (token : Token) (rest : List Token) :
    peek? (token :: rest) = .ok (some token, token :: rest) := rfl

theorem run_advance (token : Token) (rest : List Token) :
    advance (token :: rest) = .ok ((), rest) := rfl

theorem run_expect {token : Token} {kind : Kind} (same : token.kind = kind) (rest : List Token) :
    expect kind (token :: rest) = .ok (token, rest) := by
  rw [expect, if_pos same]

theorem run_expectWord (keyword : Keyword) (rest : List Token) :
    expectWord keyword (wordToken keyword :: rest) = .ok ((), rest) :=
  run_bind (run_expect rfl rest)

theorem run_expectSign (symbol : Symbol) (rest : List Token) :
    expectSign symbol (signToken symbol :: rest) = .ok ((), rest) :=
  run_bind (run_expect rfl rest)

theorem run_identifier (identifier : String) (rest : List Token) :
    Parser.identifier (nameToken identifier :: rest) = .ok (identifier, rest) := by
  have taken : expect .identifier (nameToken identifier :: rest) =
      .ok (nameToken identifier, rest) := run_expect rfl rest
  exact run_bind taken

theorem run_isAt_word (keyword : Keyword) (rest : List Token) :
    isAt (.keyword keyword) (wordToken keyword :: rest) =
      .ok (true, wordToken keyword :: rest) := by
  have same : decide ((wordToken keyword).kind = .keyword keyword) = true := decide_eq_true rfl
  change Except.ok (decide ((wordToken keyword).kind = .keyword keyword), _) = _
  rw [same]

theorem run_isAt_of_ne {kind : Kind} {rest : List Token}
    (absent : ∀ token ∈ rest.head?, token.kind ≠ kind) : isAt kind rest = .ok (false, rest) := by
  cases rest with
  | nil => rfl
  | cons token rest =>
      change Except.ok (decide (token.kind = kind), token :: rest) = _
      rw [decide_eq_false (absent token rfl)]

/-! ### Chains of operators -/

theorem run_chainWithin_stop {operator? : Kind → Option Operator} (operand : Parser Expr)
    (left : Expr) (budget : List Token) {rest : List Token}
    (ends : ∀ token ∈ rest.head?, operator? token.kind = none) :
    chainWithin operator? operand left budget rest = .ok (left, rest) := by
  cases budget with
  | nil => rfl
  | cons spent budget =>
      have noOperator : (rest.head?.bind fun token => operator? token.kind) = none := by
        cases rest with
        | nil => rfl
        | cons token rest => exact ends token rfl
      rw [chainWithin, run_bind (rfl : peek? rest = .ok (rest.head?, rest)), noOperator]
      rfl

theorem run_chain_single {operator? : Kind → Option Operator} {operand : Parser Expr}
    {tokens rest : List Token} {value : Expr} (success : operand tokens = .ok (value, rest))
    (ends : ∀ token ∈ rest.head?, operator? token.kind = none) :
    chain operator? operand tokens = .ok (value, rest) := by
  rw [chain, run_bind success]
  exact run_chainWithin_stop operand value rest ends

theorem run_chainWithin_step {operator? : Kind → Option Operator} {operand : Parser Expr}
    {middle rest : List Token} {token : Token} {operator : Operator} {right : Expr}
    (known : operator? token.kind = some operator) (second : operand middle = .ok (right, rest))
    (left : Expr) (spent : Token) (budget : List Token) :
    chainWithin operator? operand left (spent :: budget) (token :: middle) =
      chainWithin operator? operand (.binary left operator right) budget rest := by
  have found : ((token :: middle).head?.bind fun token => operator? token.kind) = some operator :=
    known
  rw [chainWithin, run_bind (rfl : peek? (token :: middle) = .ok (some token, token :: middle)),
    found]
  change (operand >>= fun right => chainWithin operator? operand (.binary left operator right)
    budget) middle = _
  exact run_bind second

theorem run_chain_pair {operator? : Kind → Option Operator} {operand : Parser Expr}
    {tokens middle rest : List Token} {token : Token} {left right : Expr} {operator : Operator}
    (first : operand tokens = .ok (left, token :: middle))
    (known : operator? token.kind = some operator)
    (second : operand middle = .ok (right, rest))
    (ends : ∀ token ∈ rest.head?, operator? token.kind = none) :
    chain operator? operand tokens = .ok (.binary left operator right, rest) := by
  rw [chain, run_bind first]
  change chainWithin operator? operand left (token :: middle) (token :: middle) = _
  rw [run_chainWithin_step known second]
  exact run_chainWithin_stop operand _ middle ends

/-! ### Lists -/

section

variable {α : Type}

/-- The item is read from its tokens, which are not none and do not start with the given sign,
whatever comes after it that does not go on an expression. -/
def ReadsItem (item : Parser α) (close : Symbol) (value : α) (pieces : List Piece) : Prop :=
  (∃ token tokens, tokensOf 0 pieces = token :: tokens ∧ token.kind ≠ .symbol close) ∧
    ∀ rest, AfterExpression rest → item (tokensOf 0 pieces ++ rest) = .ok (value, rest)

private theorem run_listedWithin_close (close : Symbol) (item : Parser α) (spent : Token)
    (budget rest : List Token) :
    listedWithin close item (spent :: budget) (signToken close :: rest) =
      .ok ([], signToken close :: rest) := by
  have closed : (signToken close).kind = .symbol close := rfl
  rw [listedWithin, run_bind (run_peek _ _), if_pos closed]
  rfl

private theorem run_skipComma_comma (rest : List Token) :
    skipComma (signToken .comma :: rest) = .ok ((), rest) := rfl

private theorem run_skipComma_other {token : Token} (noComma : token.kind ≠ .symbol .comma)
    (rest : List Token) : skipComma (token :: rest) = .ok ((), token :: rest) := by
  rw [skipComma, run_bind (run_peek _ _), if_neg noComma]
  rfl

private theorem run_listedWithin {close : Symbol} (ends : EndsExpression (.symbol close))
    (noComma : close ≠ .comma) {item : Parser α} {render : α → List Piece} (values : List α)
    (reads : ∀ value ∈ values, ReadsItem item close value (render value))
    (budget rest : List Token) (enough : values.length < budget.length) :
    listedWithin close item budget
        (tokensOf 0 (commaSeparated (values.map render)) ++ signToken close :: rest) =
      .ok (values, signToken close :: rest) := by
  induction values generalizing budget with
  | nil =>
      cases budget with
      | nil => cases enough
      | cons spent budget => exact run_listedWithin_close close item spent budget rest
  | cons value others ih =>
      cases budget with
      | nil => cases enough
      | cons spent budget =>
          obtain ⟨⟨token, tokens, start, notClose⟩, readsValue⟩ := reads value List.mem_cons_self
          have readsOthers := ih
            (fun other member => reads other (List.mem_cons_of_mem value member)) budget
            (Nat.lt_of_succ_lt_succ enough)
          have peeked : ∀ more, peek (tokensOf 0 (render value) ++ more) =
              .ok (token, tokensOf 0 (render value) ++ more) := by
            intro more
            rw [start]
            rfl
          -- The item ends at the closing sign if it is the last one, at a comma otherwise.
          cases others with
          | nil =>
              change listedWithin close item (spent :: budget)
                (tokensOf 0 (render value) ++ signToken close :: rest) = _
              have notComma : (signToken close).kind ≠ .symbol .comma := by
                intro same
                exact noComma (Kind.symbol.inj same)
              rw [listedWithin, run_bind (peeked _), if_neg notClose,
                run_bind (readsValue _ (afterExpression_sign ends rest)),
                run_bind (run_skipComma_other notComma rest)]
              exact run_bind readsOthers
          | cons other others =>
              have separated :
                  tokensOf 0 (commaSeparated ((value :: other :: others).map render)) ++
                      signToken close :: rest =
                    tokensOf 0 (render value) ++ signToken .comma ::
                      (tokensOf 0 (commaSeparated ((other :: others).map render)) ++
                        signToken close :: rest) := by
                simp only [List.map_cons, commaSeparated, tokensOf_append, tokensOf_sign,
                  tokensOf_space, List.append_assoc, List.cons_append]
              rw [separated, listedWithin, run_bind (peeked _), if_neg notClose,
                run_bind (readsValue _ (afterExpression_sign ⟨rfl, rfl⟩ _)),
                run_bind (run_skipComma_comma _), run_bind readsOthers]
              rfl

private theorem length_commaSeparated {close : Symbol} {item : Parser α} {render : α → List Piece}
    (values : List α) (reads : ∀ value ∈ values, ReadsItem item close value (render value)) :
    values.length ≤ (tokensOf 0 (commaSeparated (values.map render))).length := by
  induction values with
  | nil => exact Nat.le_refl 0
  | cons value others ih =>
      obtain ⟨⟨token, tokens, start, _⟩, _⟩ := reads value List.mem_cons_self
      have longer := ih fun other member => reads other (List.mem_cons_of_mem value member)
      cases others with
      | nil =>
          simp only [List.map_cons, List.map_nil, commaSeparated, start, List.length_cons,
            List.length_nil]
          omega
      | cons other others =>
          simp only [List.map_cons, commaSeparated, tokensOf_append, tokensOf_sign, tokensOf_space,
            start, List.length_append, List.length_cons] at longer ⊢
          omega

theorem run_listed {close : Symbol} (ends : EndsExpression (.symbol close))
    (noComma : close ≠ .comma) {item : Parser α} {render : α → List Piece} (values : List α)
    (reads : ∀ value ∈ values, ReadsItem item close value (render value)) (rest : List Token) :
    listed close item
        (tokensOf 0 (commaSeparated (values.map render)) ++ signToken close :: rest) =
      .ok (values, rest) := by
  have longer := length_commaSeparated values reads
  have enough : values.length <
      (tokensOf 0 (commaSeparated (values.map render)) ++ signToken close :: rest).length := by
    rw [List.length_append, List.length_cons]
    omega
  rw [listed, run_bind (run_get _),
    run_bind (run_listedWithin ends noComma values reads _ rest enough),
    run_bind (run_expectSign close rest)]
  rfl

end

/-! ### Expressions -/

def startKinds : List Kind :=
  [.number, .string, .keyword .falseWord, .identifier, .symbol .openParen]

theorem tokens_pieces (value : Expr) (printable : value.isPrintable = true) :
    ∃ token tokens, tokensOf 0 value.pieces = token :: tokens ∧ token.kind ∈ startKinds := by
  cases value with
  | literal constant =>
      cases constant with
      | int value => exact ⟨⟨.number, .number value.toNat, 0⟩, [], rfl, .head _⟩
      | text content => exact ⟨stringToken content, [], rfl, .tail _ (.head _)⟩
      | bool _ => exact ⟨wordToken .falseWord, [], rfl, by decide⟩
      | none | float _ | table _ => cases printable
  | «variable» _ => exact ⟨signToken .openParen, _, rfl, by decide⟩
  | binary _ _ _ => exact ⟨signToken .openParen, _, rfl, by decide⟩
  | call callee _ => exact ⟨nameToken callee, _, rfl, .tail _ (.tail _ (.tail _ (.head _)))⟩
  | table _ | misplaced _ | lacking => cases printable

theorem run_expression_single {depth : Nat} {tokens rest : List Token} {value : Expr}
    (success : term (expression depth) tokens = .ok (value, rest)) (after : AfterExpression rest) :
    expression (depth + 1) tokens = .ok (value, rest) :=
  run_chain_single (run_chain_single success fun token member => (after token member).1)
    fun token member => (after token member).2

/-- Two operands with an operator of either level between them. -/
theorem run_expression_pair {depth : Nat} {tokens middle rest : List Token} {token : Token}
    {left right : Expr} {operator : Operator}
    (first : term (expression depth) tokens = .ok (left, token :: middle))
    (second : term (expression depth) middle = .ok (right, rest))
    (same : token.kind = operator.kind) (known : operator ∈ Operator.all) (after : AfterExpression rest) :
    expression (depth + 1) tokens = .ok (.binary left operator right, rest) := by
  have noneTighter : ∀ other ∈ rest.head?, Operator.arithmetic? other.kind = none :=
    fun other member => (after other member).1
  have noneLooser : ∀ other ∈ rest.head?, Operator.logical? other.kind = none :=
    fun other member => (after other member).2
  have levels := Operator.level_of_mem known
  rw [← same] at levels
  rcases levels with tighter | ⟨notTighter, looser⟩
  · exact run_chain_single (run_chain_pair first tighter second noneTighter) noneLooser
  · have leftOnly : ∀ other ∈ (token :: middle).head?, Operator.arithmetic? other.kind = none := by
      intro other member
      cases member
      exact notTighter
    exact run_chain_pair (run_chain_single first leftOnly) looser
      (run_chain_single second noneTighter) noneLooser

private theorem run_term_parenthesized {inner : Parser Expr} {tokens rest : List Token}
    {value : Expr} (success : inner tokens = .ok (value, signToken .closeParen :: rest)) :
    term inner (signToken .openParen :: tokens) = .ok (value, rest) := by
  change (inner >>= fun value => expectSign .closeParen >>= fun _ => pure value) tokens = _
  rw [run_bind success, run_bind (run_expectSign .closeParen rest)]
  rfl

private theorem run_term_variable (inner : Parser Expr) (identifier : String) {rest : List Token}
    (noCall : ∀ token ∈ rest.head?, token.kind ≠ .symbol .openParen) :
    term inner (nameToken identifier :: rest) = .ok (.variable identifier, rest) := by
  change (isAt (.symbol .openParen) >>= fun opened =>
    if opened = true then call inner identifier else pure (.variable identifier)) rest = _
  rw [run_bind (run_isAt_of_ne noCall)]
  rfl

private theorem run_term_call (inner : Parser Expr) (callee : String) (rest : List Token) :
    term inner (nameToken callee :: signToken .openParen :: rest) =
      call inner callee (signToken .openParen :: rest) := rfl

theorem run_argumentsOf {inner : Parser Expr} (arguments : List Expr)
    (reads : ∀ value ∈ arguments, ReadsItem inner .closeParen value value.pieces)
    (rest : List Token) :
    argumentsOf inner (signToken .openParen :: (tokensOf 0 (commaSeparated
      (Expr.piecesEach arguments)) ++ signToken .closeParen :: rest)) =
        .ok (arguments, rest) := by
  rw [argumentsOf, run_bind (run_expectSign .openParen _), Expr.piecesEach_eq_map]
  exact run_listed ⟨rfl, rfl⟩ (by decide) arguments reads rest

private theorem readsItem_expression {depth : Nat} {value : Expr} {close : Symbol}
    (printable : value.isPrintable = true) (notOpen : close ≠ .openParen)
    (reads : ∀ rest,
      term (expression depth) (tokensOf 0 value.pieces ++ rest) = .ok (value, rest)) :
    ReadsItem (expression (depth + 1)) close value value.pieces := by
  obtain ⟨token, tokens, start, member⟩ := tokens_pieces value printable
  refine ⟨⟨token, tokens, start, ?_⟩, fun rest after => run_expression_single (reads rest) after⟩
  intro same
  rw [same] at member
  simp [startKinds] at member
  exact notOpen member

mutual

theorem run_term : (value : Expr) → value.isPrintable = true → ∀ depth, value.nesting ≤ depth →
    ∀ rest, term (expression depth) (tokensOf 0 value.pieces ++ rest) = .ok (value, rest)
  | .literal (.int value), printable, depth, _, rest => by
      simp only [Expr.isPrintable, Bool.and_eq_true, decide_eq_true_eq] at printable
      have same : ((value.toNat : Nat) : Int) = value := Int.toNat_of_nonneg printable.1
      change Except.ok (Expr.literal (.int (value.toNat : Nat)), rest) = _
      rw [same]
  | .literal (.text _), _, _, _, _ => rfl
  | .literal (.bool value), printable, _, _, _ => by
      cases value with
      | false => rfl
      | true => cases printable
  | .variable identifier, _, depth, deep, rest => by
      obtain ⟨depth, rfl⟩ := Nat.exists_eq_add_of_le' deep
      have noCall : ∀ token ∈ (signToken .closeParen :: rest).head?,
          token.kind ≠ .symbol .openParen := by
        intro token member
        cases member
        decide
      exact run_term_parenthesized (run_expression_single
        (run_term_variable (expression depth) identifier noCall)
        (afterExpression_sign ⟨rfl, rfl⟩ rest))
  | .binary left operator right, printable, depth, deep, rest => by
      simp only [Expr.isPrintable, Bool.and_eq_true, decide_eq_true_eq] at printable
      rw [Expr.nesting] at deep
      obtain ⟨depth, rfl⟩ := Nat.exists_eq_add_of_le' (Nat.le_trans (Nat.le_add_left 1 _) deep)
      obtain ⟨token, tokens_operator, same⟩ := Operator.tokens_pieces printable.1.2
      have separated : tokensOf 0 (Expr.binary left operator right).pieces ++ rest =
          signToken .openParen :: (tokensOf 0 left.pieces ++ token ::
            (tokensOf 0 right.pieces ++ signToken .closeParen :: rest)) := by
        simp only [Expr.pieces, List.cons_append, List.append_assoc, tokensOf_sign,
          tokensOf_append, tokensOf_space, tokensOf_nil, tokens_operator, List.nil_append]
      rw [separated]
      apply run_term_parenthesized
      exact run_expression_pair (run_term left printable.1.1 depth (by omega) _)
        (run_term right printable.2 depth (by omega) _) same printable.1.2
        (afterExpression_sign ⟨rfl, rfl⟩ rest)
  | .call callee arguments, printable, depth, deep, rest => by
      simp only [Expr.isPrintable, Bool.and_eq_true] at printable
      rw [Expr.nesting] at deep
      obtain ⟨depth, rfl⟩ := Nat.exists_eq_add_of_le' (Nat.le_trans (Nat.le_add_left 1 _) deep)
      have found := run_argumentsOf arguments
        (run_arguments arguments printable.2 depth (by omega)) rest
      have separated : tokensOf 0 (Expr.call callee arguments).pieces ++ rest =
          nameToken callee :: signToken .openParen :: (tokensOf 0 (commaSeparated
            (Expr.piecesEach arguments)) ++ signToken .closeParen :: rest) := by
        simp only [Expr.pieces, List.cons_append, List.append_assoc, tokensOf_name, tokensOf_sign,
          tokensOf_append, tokensOf_nil, List.nil_append]
      rw [separated]
      rw [run_term_call, call, run_bind found]
      rfl

theorem run_arguments : (arguments : List Expr) → Expr.arePrintable arguments = true →
    ∀ depth, Expr.deepest arguments ≤ depth →
      ∀ value ∈ arguments, ReadsItem (expression (depth + 1)) .closeParen value value.pieces
  | [], _, _, _ => List.forall_mem_nil _
  | value :: rest, printable, depth, deep => by
      simp only [Expr.arePrintable, Bool.and_eq_true] at printable
      rw [Expr.deepest] at deep
      have first : ReadsItem (expression (depth + 1)) .closeParen value value.pieces :=
        readsItem_expression printable.1 (by decide) (run_term value printable.1 depth (by omega))
      have others := run_arguments rest printable.2 depth (by omega)
      exact List.forall_mem_cons.mpr ⟨first, others⟩

end

/-- A printed expression is read up to its end, which is where no operator follows. -/
theorem run_expression {depth : Nat} {value : Expr} (printable : value.isPrintable = true)
    (deep : value.nesting ≤ depth) {rest : List Token} (after : AfterExpression rest) :
    expression (depth + 1) (tokensOf 0 value.pieces ++ rest) = .ok (value, rest) :=
  run_expression_single (run_term value printable depth deep rest) after

end Parser

end IndentScript
