import IndentScript.Text.Quoted

/-!
Tokens: what a source text is cut into. A token has a kind, a payload and the number of its
line. Besides the words and signs of the source there are layout tokens, which open and close
the blocks made by indentation, and one token for the end of the source.

A kind outside the language has the case `Kind.other`; no source text gives such a token, but
a token list may hold one.
-/

namespace IndentScript

/-- Words that are not identifiers. Some of them have no use in a program. -/
inductive Keyword where
  | localWord | printlineWord | printlinefWord | importWord | forWord | inWord | rangeWord
  | ifWord | elifWord | elseWord | whileWord | breakWord | continueWord | funcWord | returnWord
  | trueWord | falseWord | tableWord | andWord | orWord | notWord | passWord | constWord
  | tryWord | catchWord | classWord | newWord | thisWord | nullWord | nilWord | assertWord
  deriving DecidableEq, Repr

namespace Keyword

def all : List Keyword :=
  [localWord, printlineWord, printlinefWord, importWord, forWord, inWord, rangeWord, ifWord,
   elifWord, elseWord, whileWord, breakWord, continueWord, funcWord, returnWord, trueWord,
   falseWord, tableWord, andWord, orWord, notWord, passWord, constWord, tryWord, catchWord,
   classWord, newWord, thisWord, nullWord, nilWord, assertWord]

def spelling : Keyword → String
  | localWord => "local"
  | printlineWord => "printline"
  | printlinefWord => "printlinef"
  | importWord => "import"
  | forWord => "for"
  | inWord => "in"
  | rangeWord => "range"
  | ifWord => "if"
  | elifWord => "elif"
  | elseWord => "else"
  | whileWord => "while"
  | breakWord => "break"
  | continueWord => "continue"
  | funcWord => "func"
  | returnWord => "return"
  | trueWord => "True"
  | falseWord => "False"
  | tableWord => "table"
  | andWord => "and"
  | orWord => "or"
  | notWord => "not"
  | passWord => "pass"
  | constWord => "const"
  | tryWord => "try"
  | catchWord => "catch"
  | classWord => "class"
  | newWord => "new"
  | thisWord => "this"
  | nullWord => "null"
  | nilWord => "nil"
  | assertWord => "assert"

def name (keyword : Keyword) : String :=
  keyword.spelling.map Char.toUpper

def ofSpelling? (word : String) : Option Keyword :=
  all.find? fun keyword => keyword.spelling = word

theorem mem_all (keyword : Keyword) : keyword ∈ all := by
  cases keyword <;> decide

end Keyword

inductive Symbol where
  | assign | equals | greater | less | plus | minus | times | slash | percent
  | openParen | closeParen | colon | comma | openBrace | closeBrace | openBracket | closeBracket
  | dot
  deriving DecidableEq, Repr

namespace Symbol

def all : List Symbol :=
  [assign, equals, greater, less, plus, minus, times, slash, percent, openParen, closeParen, colon,
   comma, openBrace, closeBrace, openBracket, closeBracket, dot]

def spelling : Symbol → String
  | assign => "="
  | equals => "=="
  | greater => ">"
  | less => "<"
  | plus => "+"
  | minus => "-"
  | times => "*"
  | slash => "/"
  | percent => "%"
  | openParen => "("
  | closeParen => ")"
  | colon => ":"
  | comma => ","
  | openBrace => "\x7b"
  | closeBrace => "\x7d"
  | openBracket => "["
  | closeBracket => "]"
  | dot => "."

def name : Symbol → String
  | assign => "ASSIGN"
  | equals => "EQ"
  | greater => "GT"
  | less => "LT"
  | plus => "PLUS"
  | minus => "MINUS"
  | times => "MUL"
  | slash => "DIV"
  | percent => "MOD"
  | openParen => "LPAREN"
  | closeParen => "RPAREN"
  | colon => "COLON"
  | comma => "COMMA"
  | openBrace => "LBRACKET"
  | closeBrace => "RBRACKET"
  | openBracket => "LSQUARE"
  | closeBracket => "RSQUARE"
  | dot => "DOT"

def ofCharacter? : Char → Option Symbol
  | '=' => some assign
  | '>' => some greater
  | '<' => some less
  | '+' => some plus
  | '-' => some minus
  | '*' => some times
  | '/' => some slash
  | '%' => some percent
  | '(' => some openParen
  | ')' => some closeParen
  | ':' => some colon
  | ',' => some comma
  | '\x7b' => some openBrace
  | '\x7d' => some closeBrace
  | '[' => some openBracket
  | ']' => some closeBracket
  | '.' => some dot
  | _ => none

theorem mem_all (symbol : Symbol) : symbol ∈ all := by
  cases symbol <;> decide

end Symbol

inductive Kind where
  | endOfSource
  | indent
  | dedent
  | number
  | string
  | identifier
  | keyword (word : Keyword)
  | symbol (sign : Symbol)
  | other (name : String)
  deriving DecidableEq, Repr

namespace Kind

def name : Kind → String
  | endOfSource => "EOF"
  | indent => "INDENT"
  | dedent => "DEDENT"
  | number => "NUMBER"
  | string => "STRING"
  | identifier => "IDENTIFIER"
  | .keyword word => word.name
  | .symbol sign => sign.name
  | .other name => name

def all : List Kind :=
  [endOfSource, indent, dedent, number, string, identifier] ++ Keyword.all.map .keyword
    ++ Symbol.all.map .symbol

def ofName (name : String) : Kind :=
  (all.find? fun kind => kind.name = name).getD (other name)

end Kind

/-- What a token carries: nothing at the end of the source, the value of a number, and a text
otherwise. -/
inductive Payload where
  | absent
  | text (content : String)
  | number (value : Int)
  deriving DecidableEq, Repr

namespace Payload

def shown : Payload → String
  | .absent => "None"
  | .text content => Text.quoted content
  | .number value => toString value

/-- The text of the payload; a payload that is no text has none. -/
def asText : Payload → String
  | .text content => content
  | _ => ""

end Payload

structure Token where
  kind : Kind
  payload : Payload
  line : Nat
  deriving DecidableEq, Repr

namespace Token

def shown (token : Token) : String :=
  "Token(" ++ token.kind.name ++ ", " ++ token.payload.shown ++ ", line " ++ toString token.line
    ++ ")"

def opening (line : Nat) : Token := ⟨.indent, .text "", line⟩

def closing (line : Nat) : Token := ⟨.dedent, .text "", line⟩

def final (line : Nat) : Token := ⟨.endOfSource, .absent, line⟩

end Token

end IndentScript
