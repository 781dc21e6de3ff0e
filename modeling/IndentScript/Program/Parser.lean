import IndentScript.Limits
import IndentScript.Program

/-!
Reading a token list into a program.

There are no tokens between statements: a statement ends where its grammar ends. Expressions
have two levels of operators, each read from left to right: `and` and `or` below all others.

Reading nests as deep as the text does, up to a limit. The budget of a loop is the list of the
tokens that are left when it starts: each round takes at least one token, so no more rounds than
tokens are needed.
-/

namespace IndentScript

inductive ParseFault where
  | expected (kind : Kind)
  | expressionExpected
  /-- The kind of the current token was asked for, but no token is left. -/
  | noToken
  /-- There was no token to start with. -/
  | emptyList
  | tooDeep
  deriving DecidableEq, Repr

/-- A failed reading: the fault and the tokens from the current one on. -/
structure ParseFailure where
  fault : ParseFault
  rest : List Token
  deriving DecidableEq, Repr

namespace ParseFailure

def current (failure : ParseFailure) : String :=
  match failure.rest with
  | [] => "None"
  | token :: _ => token.shown

def message (failure : ParseFailure) : String :=
  match failure.fault with
  | .expected kind =>
    "Syntax error: Expected " ++ kind.name ++ ", got " ++ failure.current ++ " at token "
      ++ failure.current
  | .expressionExpected => "Syntax error: Expression expected at token " ++ failure.current
  | .noToken => "'NoneType' object has no attribute 'type'"
  | .emptyList => "list index out of range"
  | .tooDeep => "maximum recursion depth exceeded"

end ParseFailure

/-- A reader: takes tokens from the front of a list. -/
abbrev Parser := StateT (List Token) (Except ParseFailure)

namespace Parser

/-! ### Single tokens -/

def fail (fault : ParseFault) : Parser α := fun tokens =>
  .error ⟨fault, tokens⟩

def peek? : Parser (Option Token) := fun tokens =>
  .ok (tokens.head?, tokens)

def peek : Parser Token := fun tokens =>
  match tokens with
  | [] => .error ⟨.noToken, []⟩
  | token :: _ => .ok (token, tokens)

def advance : Parser Unit := fun tokens =>
  .ok ((), tokens.drop 1)

def expect (kind : Kind) : Parser Token := fun tokens =>
  match tokens with
  | [] => .error ⟨.expected kind, []⟩
  | token :: rest =>
    if token.kind = kind then .ok (token, rest) else .error ⟨.expected kind, tokens⟩

def expectWord (word : Keyword) : Parser Unit := do
  let _ ← expect (.keyword word)

def expectSign (sign : Symbol) : Parser Unit := do
  let _ ← expect (.symbol sign)

def identifier : Parser String := do
  let token ← expect .identifier
  return token.payload.asText

def isAt (kind : Kind) : Parser Bool := do
  let token ← peek?
  return token.any fun token => token.kind = kind

/-- Takes a comma if there is one; some token must be there. -/
def skipComma : Parser Unit := do
  let token ← peek
  if token.kind = .symbol .comma then advance

/-! ### Repetition -/

/-- Items up to a closing sign, which stays; a comma after an item is optional. -/
def listedWithin (close : Symbol) (item : Parser α) : List Token → Parser (List α)
  | [] => fail .noToken
  | _ :: budget => do
    let token ← peek
    if token.kind = .symbol close then return []
    let first ← item
    skipComma
    let others ← listedWithin close item budget
    return first :: others

/-- Items up to a closing sign, which is taken. -/
def listed (close : Symbol) (item : Parser α) : Parser (List α) := do
  let budget ← get
  let found ← listedWithin close item budget
  expectSign close
  return found

/-- Goes on from `left` with operators and operands, from left to right. -/
def chainWithin (operator? : Kind → Option Operator) (operand : Parser Expr) (left : Expr) :
    List Token → Parser Expr
  | [] => return left
  | _ :: budget => do
    let token ← peek?
    match token.bind fun token => operator? token.kind with
    | none => return left
    | some operator =>
      advance
      let right ← operand
      chainWithin operator? operand (.binary left operator right) budget

def chain (operator? : Kind → Option Operator) (operand : Parser Expr) : Parser Expr := do
  let left ← operand
  let budget ← get
  chainWithin operator? operand left budget

/-- Statements up to a token of the kind `stop`, which stays, or the end of the list. -/
def statementsWithin (stop : Kind) (statement : Parser Stmt) : List Token → Parser Block
  | [] => return []
  | _ :: budget => do
    let token ← peek?
    match token with
    | none => return []
    | some token =>
      if token.kind = stop then return []
      let first ← statement
      let others ← statementsWithin stop statement budget
      return first :: others

def statementsUntil (stop : Kind) (statement : Parser Stmt) : Parser Block := do
  let budget ← get
  statementsWithin stop statement budget

/-! ### Expressions -/

def literalOf (token : Token) : Literal :=
  match token.payload with
  | .absent => .none
  | .text content => .text content
  | .number value => .int value

def argumentsOf (expression : Parser Expr) : Parser (List Expr) := do
  expectSign .openParen
  listed .closeParen expression

/-- A call of the function named `callee`, from the opening parenthesis on. -/
def call (expression : Parser Expr) (callee : String) : Parser Expr := do
  let found ← argumentsOf expression
  return .call callee found

/-- An operand. A truth value is true only if its token's text is all capitals, which no token
of a source text has. -/
def term (expression : Parser Expr) : Parser Expr := do
  let token ← peek
  match token.kind with
  | .number | .string =>
    advance
    return .literal (literalOf token)
  | .identifier =>
    advance
    if ← isAt (.symbol .openParen) then call expression token.payload.asText
    else return .variable token.payload.asText
  | .keyword .trueWord | .keyword .falseWord =>
    advance
    return .literal (.bool (token.payload = .text "TRUE"))
  | .symbol .openParen =>
    advance
    let inner ← expression
    expectSign .closeParen
    return inner
  | _ => fail .expressionExpected

def comparison (expression : Parser Expr) : Parser Expr :=
  chain Operator.arithmetic? (term expression)

def logical (expression : Parser Expr) : Parser Expr :=
  chain Operator.logical? (comparison expression)

def expression : Nat → Parser Expr
  | 0 => fail .tooDeep
  | depth + 1 => logical (expression depth)

/-! ### Statements

The parts of a statement are read by the given readers for expressions and for statements. -/

def block (statement : Parser Stmt) : Parser Block := do
  let _ ← expect .indent
  let body ← statementsUntil .dedent statement
  let _ ← expect .dedent
  return body

def condition (expression : Parser Expr) : Parser Expr := do
  expectSign .openParen
  let found ← expression
  expectSign .closeParen
  return found

def body (statement : Parser Stmt) : Parser Block := do
  expectSign .colon
  block statement

def assignment (expression : Parser Expr) : Parser Stmt := do
  expectWord .localWord
  let name ← identifier
  expectSign .assign
  let value ← expression
  return .assign name value

def printing (expression : Parser Expr) : Parser Stmt := do
  let token ← peek
  if token.kind = .keyword .printlineWord ∨ token.kind = .keyword .printlinefWord then advance
  let found ← argumentsOf expression
  return .print found

def armsWithin (expression : Parser Expr) (statement : Parser Stmt) :
    List Token → Parser (List (Expr × Block))
  | [] => return []
  | _ :: budget => do
    if ← isAt (.keyword .elifWord) then
      advance
      let test ← condition expression
      let found ← body statement
      let others ← armsWithin expression statement budget
      return (test, found) :: others
    else return []

def branching (expression : Parser Expr) (statement : Parser Stmt) : Parser Stmt := do
  expectWord .ifWord
  let test ← condition expression
  let found ← body statement
  let budget ← get
  let arms ← armsWithin expression statement budget
  if ← isAt (.keyword .elseWord) then
    advance
    let otherwise ← body statement
    return .branch test found arms (some otherwise)
  else return .branch test found arms none

def counting (expression : Parser Expr) (statement : Parser Stmt) : Parser Stmt := do
  expectWord .forWord
  let name ← identifier
  expectWord .inWord
  expectWord .rangeWord
  let limit ← condition expression
  let found ← body statement
  return .count name limit found

def looping (expression : Parser Expr) (statement : Parser Stmt) : Parser Stmt := do
  expectWord .whileWord
  let test ← condition expression
  let found ← body statement
  return .loop test found

def definition (statement : Parser Stmt) : Parser Stmt := do
  expectWord .funcWord
  let name ← identifier
  expectSign .openParen
  let parameters ← listed .closeParen identifier
  let found ← body statement
  return .define name parameters found

/-- The end of a function, with a value unless the source ends here. -/
def result (expression : Parser Expr) : Parser Stmt := do
  expectWord .returnWord
  match ← peek? with
  | none => return .result none
  | some token =>
    if token.kind = .endOfSource then return .result none
    let value ← expression
    return .result (some value)

def tableField (expression : Parser Expr) : Parser (String × Expr) := do
  let key ← expect .string
  expectSign .colon
  let value ← expression
  return (key.payload.asText, value)

def tableDefinition (expression : Parser Expr) : Parser Stmt := do
  expectWord .tableWord
  let name ← identifier
  expectSign .assign
  expectSign .openBrace
  let pairs ← listed .closeBrace (tableField expression)
  return .assign name (.table (Entries.ofPairs pairs))

def loading : Parser Stmt := do
  expectWord .importWord
  let token ← peek
  if token.kind = .string then
    advance
    return .load token.payload.asText
  else
    let name ← identifier
    return .load name

def statementOf (expression : Parser Expr) (statement : Parser Stmt) : Parser Stmt := do
  let token ← peek
  match token.kind with
  | .keyword .localWord => assignment expression
  | .keyword .printlineWord | .keyword .printlinefWord => printing expression
  | .keyword .ifWord => branching expression statement
  | .keyword .forWord => counting expression statement
  | .keyword .whileWord => looping expression statement
  | .keyword .breakWord =>
    advance
    return .leave
  | .keyword .continueWord =>
    advance
    return .next
  | .keyword .funcWord => definition statement
  | .keyword .returnWord => result expression
  | .keyword .tableWord => tableDefinition expression
  | .keyword .importWord => loading
  | _ =>
    let value ← expression
    return .evaluate value

def statement : Nat → Parser Stmt
  | 0 => fail .tooDeep
  | depth + 1 => statementOf (expression (depth + 1)) (statement depth)

def program (depth : Nat) : Parser Program := do
  let statements ← statementsUntil .endOfSource (statement depth)
  return ⟨statements⟩

def nestingLimit [Limits] : Nat := Limits.reading

/-- Reads from the front of a token list, which must not be empty, and gives what is left. -/
def start (parser : Parser α) : List Token → Except ParseFailure (α × List Token)
  | [] => .error ⟨.emptyList, []⟩
  | token :: rest => parser.run (token :: rest)

end Parser

def parseWithin (depth : Nat) (tokens : List Token) : Except ParseFailure Program := do
  let (program, _) ← (Parser.program depth).start tokens
  return program

def parse [Limits] (tokens : List Token) : Except ParseFailure Program :=
  parseWithin Parser.nestingLimit tokens

end IndentScript
