import IndentScript.Number.Numeral
import IndentScript.Text.Lines
import IndentScript.Token

/-!
Cutting a source text into tokens, line by line.

The width of a line's indentation is compared with a stack of the widths of the open blocks. A
greater width opens a block; a smaller one closes every block that is wider. When the smaller
width is not on the stack it opens a block of its own, and the opening token stands before the
closing ones. Empty lines count like others.

A text that cannot be cut up stops the work, and the tokens, line number and stack reached so
far stay as they are.
-/

namespace IndentScript

inductive LexicalFault where
  | unterminatedString (line : Nat)
  | unknownCharacter (character : Char) (line : Nat)
  | numeral (fault : Number.NumeralFault)
  deriving DecidableEq, Repr

def LexicalFault.message : LexicalFault → String
  | .unterminatedString line => "String not terminated, line " ++ toString line
  | .unknownCharacter character line =>
    "Unknown character '" ++ String.singleton character ++ "', line " ++ toString line
  | .numeral fault => fault.message

namespace Lexing

/-! ### Lexemes -/

def startsWord (c : Char) : Bool :=
  Text.isLetter c || c = '_'

def continuesWord (c : Char) : Bool :=
  Text.isLetterOrNumeric c || c = '_'

structure Lexeme where
  kind : Kind
  payload : Payload
  rest : List Char

def wordKind (word : String) : Kind :=
  match Keyword.ofSpelling? word with
  | some keyword => .keyword keyword
  | none => .identifier

/-- The lexeme that starts with the character `c`, which is not blank, before `rest`. -/
def lexeme (line : Nat) (c : Char) (rest : List Char) : Except LexicalFault Lexeme :=
  if c = '"' then
    match rest.dropWhile (· ≠ '"') with
    | [] => .error (.unterminatedString line)
    | _ :: after => .ok ⟨.string, .text (String.ofList (rest.takeWhile (· ≠ '"'))), after⟩
  else if Text.isDigit c then
    let run := c :: rest.takeWhile Text.isDigit
    match Number.readDigits (String.ofList run) run with
    | .error fault => .error (.numeral fault)
    | .ok value => .ok ⟨.number, .number value, rest.dropWhile Text.isDigit⟩
  else if startsWord c then
    let word := String.ofList (c :: rest.takeWhile continuesWord)
    .ok ⟨wordKind word, .text word, rest.dropWhile continuesWord⟩
  else if c = '=' ∧ rest.head? = some '=' then
    .ok ⟨.symbol .equals, .text Symbol.equals.spelling, rest.drop 1⟩
  else
    match Symbol.ofCharacter? c with
    | some symbol => .ok ⟨.symbol symbol, .text symbol.spelling, rest⟩
    | none => .error (.unknownCharacter c line)

private theorem dropWhile_length_le (p : Char → Bool) (characters : List Char) :
    (characters.dropWhile p).length ≤ characters.length :=
  (List.dropWhile_sublist p).length_le

/-- A lexeme takes at least its first character. -/
theorem lexeme_rest_length_le {line : Nat} {c : Char} {rest : List Char} {found : Lexeme}
    (success : lexeme line c rest = .ok found) : found.rest.length ≤ rest.length := by
  unfold lexeme at success
  split at success
  · have bound := dropWhile_length_le (· ≠ '"') rest
    split at success
    · cases success
    · rename_i head after same
      cases success
      rw [same] at bound
      simp only [List.length_cons] at bound
      exact Nat.le_of_succ_le bound
  · split at success
    · dsimp only at success
      split at success
      · cases success
      · cases success
        exact dropWhile_length_le _ _
    · split at success
      · cases success
        exact dropWhile_length_le _ _
      · split at success
        · cases success
          simp
        · split at success
          · cases success
            exact Nat.le_refl _
          · cases success

/-- The tokens of a line behind its indentation, up to a fault if there is one. -/
def scan (line : Nat) (characters : List Char) : List Token × Option LexicalFault :=
  match characters with
  | [] => ([], none)
  | c :: rest =>
    if Text.isBlank c then scan line rest
    else
      match _ : lexeme line c rest with
      | .error fault => ([], some fault)
      | .ok found =>
        let (tokens, fault) := scan line found.rest
        (⟨found.kind, found.payload, line⟩ :: tokens, fault)
termination_by characters.length
decreasing_by
  · simp
  · exact Nat.lt_succ_of_le (lexeme_rest_length_le ‹_›)

/-! ### Layout -/

/-- The width of a line's indentation: its leading blanks up to a tab. -/
def indentation (characters : List Char) : Nat :=
  (characters.takeWhile fun c => Text.isBlank c && c ≠ '\t').length

/-- Takes the blocks wider than `width` off the stack, and says how many there were. -/
def closeWider (width : Nat) : List Nat → Nat × List Nat
  | [] => (0, [])
  | top :: others =>
    if width < top then
      let (count, left) := closeWider width others
      (count + 1, left)
    else (0, top :: others)

def layout (line width : Nat) (widths : List Nat) : List Token × List Nat :=
  let (count, outer) := closeWider width widths
  let closings := List.replicate count (Token.closing line)
  if outer.headD 0 < width then (Token.opening line :: closings, width :: outer)
  else (closings, outer)

/-! ### Lines -/

/-- What cutting up some lines gives: the tokens, the number of the last line worked on, the
stack of open blocks, innermost first, and the fault that stopped the work. -/
structure Outcome where
  tokens : List Token
  line : Nat
  widths : List Nat
  fault : Option LexicalFault

/-- Cuts up the remaining lines, the first of which has the number `next`; `line` is the number
of the line before it. At the end every open block is closed. -/
def cut (line next : Nat) (widths : List Nat) : List (List Char) → Outcome
  | [] =>
    ⟨List.replicate (widths.length - 1) (Token.closing line) ++ [Token.final line], line,
      widths.drop (widths.length - 1), none⟩
  | characters :: others =>
    let width := indentation characters
    let (layoutTokens, inner) := layout next width widths
    let (tokens, fault) := scan next (characters.drop width)
    match fault with
    | some fault => ⟨layoutTokens ++ tokens, next, inner, some fault⟩
    | none =>
      let rest := cut next (next + 1) inner others
      { rest with tokens := layoutTokens ++ tokens ++ rest.tokens }

end Lexing

/-! ### The lexer -/

/-- A source text under work: a reading position, and the tokens, line number and stack of open
blocks, innermost first, that the work has reached. -/
structure Lexer where
  source : List Char
  position : Nat := 0
  line : Nat := 1
  tokens : List Token := []
  widths : List Nat := [0]

namespace Lexer

def new (source : String) : Lexer :=
  { source := source.toList }

def peek? (lexer : Lexer) : Option Char :=
  lexer.source[lexer.position]?

def advance (lexer : Lexer) : Lexer :=
  { lexer with position := lexer.position + 1 }

/-- Cuts up the whole source text. The tokens are added to those already there. -/
def tokenize (lexer : Lexer) : Lexer × Option LexicalFault :=
  let outcome := Lexing.cut lexer.line 1 lexer.widths (Text.lines lexer.source)
  ({ lexer with
      line := outcome.line
      tokens := lexer.tokens ++ outcome.tokens
      widths := outcome.widths },
    outcome.fault)

end Lexer

def tokenize (source : String) : Except LexicalFault (List Token) :=
  let (lexer, fault) := (Lexer.new source).tokenize
  match fault with
  | some fault => .error fault
  | none => .ok lexer.tokens

end IndentScript
