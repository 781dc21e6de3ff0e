import IndentScript.Number.Digits
import IndentScript.Value.Arithmetic
import IndentScript.Value.Text

/-!
Templates: texts with directives that a value is filled into.

A directive starts with a percent sign and has, in this order: a key in parentheses, flags, a
width, a precision, a size letter without meaning, and a conversion. All but the conversion may
be missing. A star takes the width or the precision from the argument. Two percent signs in a
row stand for one.

A template is first cut into pieces. Faults in its form are kept in the pieces and come up only
when the piece is reached, so that of two faults the one further to the left wins.
-/

namespace IndentScript

namespace Template

open Number (Binary64)

/-! ### Pieces -/

structure Flags where
  leftAligned : Bool := false
  plusSign : Bool := false
  blankSign : Bool := false
  alternate : Bool := false
  zeroFilled : Bool := false

inductive Measure where
  | unset
  | fixed (size : Nat)
  | fromArgument

inductive Key where
  | absent
  | unclosed
  | named (name : Content)

/-- The last code point of a directive, which says how to convert, and the code points behind
it, which tell where in the template it stands. -/
structure Ending where
  point : CodePoint
  after : List CodePoint

structure Directive where
  key : Key
  flags : Flags
  width : Measure
  precision : Measure
  /-- The ending, unless the template ends first. -/
  ending : Option Ending

inductive Piece where
  | literal (content : Content)
  | directive (written : Directive)

def keyPoints (depth : Nat) : List CodePoint → Option (List CodePoint × List CodePoint)
  | [] => none
  | point :: rest =>
    if point = .character ')' then
      match depth with
      | 0 => some ([], rest)
      | outer + 1 => (keyPoints outer rest).map fun (key, after) => (point :: key, after)
    else
      let inner := if point = .character '(' then depth + 1 else depth
      (keyPoints inner rest).map fun (key, after) => (point :: key, after)

def readKey : List CodePoint → Key × List CodePoint
  | .character '(' :: rest =>
    match keyPoints 0 rest with
    | some (key, after) => (.named (.ofPoints key), after)
    | none => (.unclosed, [])
  | points => (.absent, points)

def isFlag : CodePoint → Bool
  | .character c => c = '-' || c = '+' || c = ' ' || c = '#' || c = '0'
  | .surrogate _ => false

def flagsOf (points : List CodePoint) : Flags where
  leftAligned := .character '-' ∈ points
  plusSign := .character '+' ∈ points
  blankSign := .character ' ' ∈ points
  alternate := .character '#' ∈ points
  zeroFilled := .character '0' ∈ points

def isSizeDigit : CodePoint → Bool
  | .character c => '0' ≤ c && c ≤ '9'
  | .surrogate _ => false

def sizeOf (digits : List CodePoint) : Nat :=
  digits.foldl (fun size point => 10 * size + (point.code - '0'.toNat)) 0

/-- A star or digits, with `default` when there are none, and what follows. -/
def readMeasure (default : Measure) (points : List CodePoint) : Measure × List CodePoint :=
  match points with
  | .character '*' :: rest => (.fromArgument, rest)
  | _ =>
    match points.takeWhile isSizeDigit with
    | [] => (default, points)
    | digits => (.fixed (sizeOf digits), points.dropWhile isSizeDigit)

/-- The precision after a point, zero when nothing else is said, and what follows. -/
def readPrecision : List CodePoint → Measure × List CodePoint
  | .character '.' :: rest => readMeasure (.fixed 0) rest
  | points => (.unset, points)

def isSizeLetter : CodePoint → Bool
  | .character c => c = 'h' || c = 'l' || c = 'L'
  | .surrogate _ => false

def skipSizeLetter : List CodePoint → List CodePoint
  | point :: rest => if isSizeLetter point then rest else point :: rest
  | [] => []

def readDirective (points : List CodePoint) : Directive × List CodePoint :=
  let (key, afterKey) := readKey points
  let flags := flagsOf (afterKey.takeWhile isFlag)
  let (width, afterWidth) := readMeasure .unset (afterKey.dropWhile isFlag)
  let (precision, afterPrecision) := readPrecision afterWidth
  match skipSizeLetter afterPrecision with
  | [] => (⟨key, flags, width, precision, none⟩, [])
  | point :: rest => (⟨key, flags, width, precision, some ⟨point, rest⟩⟩, rest)

private theorem keyPoints_length_le {depth : Nat} {points key after : List CodePoint}
    (closed : keyPoints depth points = some (key, after)) :
    after.length ≤ points.length := by
  induction points generalizing depth key after with
  | nil => simp [keyPoints] at closed
  | cons point rest ih =>
    unfold keyPoints at closed
    have step : ∀ {inner : Nat},
        (keyPoints inner rest).map (fun (found : List CodePoint × List CodePoint) =>
          (point :: found.1, found.2)) = some (key, after) →
        after.length ≤ (point :: rest).length := by
      intro inner mapped
      obtain ⟨found, same, rfl, rfl⟩ : ∃ found : List CodePoint × List CodePoint,
          keyPoints inner rest = some found ∧ point :: found.1 = key ∧ found.2 = after := by
        simpa using mapped
      exact Nat.le_succ_of_le (ih same)
    split at closed
    · split at closed
      · cases closed
        exact Nat.le_succ _
      · exact step closed
    · exact step closed

private theorem readKey_length_le (points : List CodePoint) :
    (readKey points).2.length ≤ points.length := by
  unfold readKey
  split
  · split
    · rename_i closed
      exact Nat.le_succ_of_le (keyPoints_length_le closed)
    · simp
  · exact Nat.le_refl _

private theorem droppedWhile_length_le (p : CodePoint → Bool) (points : List CodePoint) :
    (points.dropWhile p).length ≤ points.length :=
  (List.dropWhile_sublist p).length_le

private theorem readMeasure_length_le (default : Measure) (points : List CodePoint) :
    (readMeasure default points).2.length ≤ points.length := by
  unfold readMeasure
  split
  · exact Nat.le_succ _
  · split
    · exact Nat.le_refl _
    · exact droppedWhile_length_le _ _

private theorem readPrecision_length_le (points : List CodePoint) :
    (readPrecision points).2.length ≤ points.length := by
  unfold readPrecision
  split
  · exact Nat.le_succ_of_le (readMeasure_length_le _ _)
  · exact Nat.le_refl _

private theorem skipSizeLetter_length_le (points : List CodePoint) :
    (skipSizeLetter points).length ≤ points.length := by
  unfold skipSizeLetter
  split
  · split
    · exact Nat.le_succ _
    · exact Nat.le_refl _
  · exact Nat.le_refl _

/-- Reading a directive makes no code points up. -/
theorem readDirective_length_le (points : List CodePoint) :
    (readDirective points).2.length ≤ points.length := by
  have bound : (skipSizeLetter (readPrecision (readMeasure .unset
      ((readKey points).2.dropWhile isFlag)).2).2).length ≤ points.length :=
    Nat.le_trans (skipSizeLetter_length_le _) <|
    Nat.le_trans (readPrecision_length_le _) <|
    Nat.le_trans (readMeasure_length_le _ _) <|
    Nat.le_trans (droppedWhile_length_le _ _) (readKey_length_le _)
  unfold readDirective
  dsimp only
  split
  · exact Nat.zero_le _
  · rename_i point rest same
    rw [same] at bound
    exact Nat.le_of_succ_le bound

def isLiteral (point : CodePoint) : Bool :=
  point ≠ .character '%'

def pieces (points : List CodePoint) : List Piece :=
  match points with
  | [] => []
  | .character '%' :: .character '%' :: rest => .literal (.plain "%") :: pieces rest
  | .character '%' :: rest =>
    .directive (readDirective rest).1 :: pieces (readDirective rest).2
  | point :: rest =>
    .literal (.ofPoints (point :: rest.takeWhile isLiteral)) :: pieces (rest.dropWhile isLiteral)
termination_by points.length
decreasing_by
  · simp only [List.length_cons]
    omega
  · exact Nat.lt_succ_of_le (readDirective_length_le rest)
  · exact Nat.lt_succ_of_le (droppedWhile_length_le _ _)

/-! ### Layout -/

/-- A converted value: a number has a sign and may have a mark of its base in front of its
digits. -/
structure Converted where
  numeric : Bool
  negative : Bool
  mark : String
  body : Content

def plain (body : Content) : Converted :=
  ⟨false, false, "", body⟩

def signOf (flags : Flags) (converted : Converted) : String :=
  if !converted.numeric then ""
  else if converted.negative then "-"
  else if flags.plusSign then "+"
  else if flags.blankSign then " "
  else ""

/-- Fills a converted value up to the given width: with zeros between sign and digits, or with
blanks on the left or on the right. -/
def aligned (flags : Flags) (width : Nat) (converted : Converted) : Content :=
  let front := signOf flags converted ++ converted.mark
  let missing := width - (front.length + converted.body.length)
  if flags.leftAligned then
    Content.concat [.plain front, converted.body, .plain (Text.repeated missing " ")]
  else if flags.zeroFilled && converted.numeric then
    Content.concat [.plain front, .plain (Text.repeated missing "0"), converted.body]
  else Content.concat [.plain (Text.repeated missing " "), .plain front, converted.body]

/-! ### Conversions -/

/-- How a value is converted; a number may be written in different ways that go by letters. -/
inductive Conversion where
  | shown
  | quoted
  /-- Quoted, with all characters beyond the ASCII ones escaped. -/
  | escaped
  | single
  | decimal (letter : Char)
  | octal
  | hexadecimal (letter : Char)
  | real (letter : Char)

def Conversion.of? : CodePoint → Option Conversion
  | .character 's' => some .shown
  | .character 'r' => some .quoted
  | .character 'a' => some .escaped
  | .character 'c' => some .single
  | .character 'o' => some .octal
  | .character letter =>
    if letter ∈ ['d', 'i', 'u'] then some (.decimal letter)
    else if letter ∈ ['x', 'X'] then some (.hexadecimal letter)
    else if letter ∈ ['e', 'E', 'f', 'F', 'g', 'G'] then some (.real letter)
    else none
  | .surrogate _ => none

def mostDigits : Nat := Nat.pow 2 31 - 4

def wholeNumber (precision : Option Nat) (mark : String) (negative : Bool) (digits : String) :
    Converted :=
  let missing := precision.getD 0 - digits.length
  ⟨true, negative, mark, .plain (Text.repeated missing "0" ++ digits)⟩

def checkDigits (precision : Option Nat) : Except TemplateFault Unit :=
  if mostDigits < precision.getD 0 then .error .tooManyDigits else .ok ()

/-- The integer for a decimal conversion: a float loses what is behind the point. -/
def integerOf (conversion : Char) (value : Value) : Except TemplateFault Int :=
  match value with
  | .float (.nan _) => .error .integerOfNoNumber
  | .float number =>
    match number.truncate? with
    | some whole => .ok whole
    | none => .error .integerOfInfinity
  | other =>
    match other.integer? with
    | some whole => .ok whole
    | none => .error (.wholeNumberNeeded conversion other.dataType)

def decimal (conversion : Char) (precision : Option Nat) (value : Value) :
    Except Fault Converted := do
  let whole ← (integerOf conversion value).mapError .template
  (checkDigits precision).mapError .template
  let digits ← (Number.writeInteger whole.natAbs).mapError .numeral
  return wholeNumber precision "" (whole < 0) digits

/-- An integer in base eight or sixteen, with the mark of its base if that is asked for. -/
def inBase (base : Nat) (conversion : Char) (flags : Flags) (precision : Option Nat)
    (value : Value) : Except TemplateFault Converted := do
  match value.integer? with
  | none => .error (.integerNeeded conversion value.dataType)
  | some whole =>
    checkDigits precision
    let digits := Number.digitsText base whole.natAbs
    let shown := if conversion = 'X' then digits.map Char.toUpper else digits
    let mark := if flags.alternate then String.ofList ['0', conversion] else ""
    return wholeNumber precision mark (whole < 0) (String.ofList shown)

def floatDigits (conversion : Char) (alternate : Bool) (precision : Nat) (units : Nat) :
    String :=
  match conversion.toLower with
  | 'f' => Number.fixedText precision alternate units
  | 'e' => Number.scientificText precision alternate units
  | _ => Number.generalText precision alternate units

/-- A float, with six places unless a precision is given. -/
def real (conversion : Char) (flags : Flags) (precision : Option Nat) (value : Value) :
    Except Fault Converted := do
  let number ← match value.quantity? with
    | some number => number.toFloat
    | none => .error (.template (.numberNeeded value.dataType))
  let body := match number with
    | .nan _ => "nan"
    | .infinite _ => "inf"
    | .finite _ units => floatDigits conversion flags.alternate (precision.getD 6) units
  let shown := if conversion.isUpper then body.map Char.toUpper else body
  return ⟨true, number.isNegative, "", .plain shown⟩

/-- A single code point, given by itself or by its code. -/
def single (value : Value) : Except TemplateFault CodePoint :=
  match value with
  | .text content =>
    match content.points with
    | [point] => .ok point
    | _ => .error .characterNeeded
  | other =>
    match other.integer? with
    | none => .error .characterNeeded
    | some code =>
      match if 0 ≤ code then CodePoint.ofCode? code.toNat else none with
      | some point => .ok point
      | none => .error .characterOutOfRange

def cutOff (precision : Option Nat) (content : Content) : Converted :=
  plain (match precision with
    | some limit => content.take limit
    | none => content)

variable [Limits]

def convert (conversion : Conversion) (flags : Flags) (precision : Option Nat) (value : Value) :
    Except Fault Converted := do
  match conversion with
  | .shown => return cutOff precision (← value.shown)
  | .quoted => return cutOff precision (← value.quoted)
  | .escaped => return cutOff precision (Text.escapedBeyondAscii (← value.quoted))
  | .single => return plain (.ofPoints [← (single value).mapError .template])
  | .decimal letter => decimal letter precision value
  | .octal => (inBase 8 'o' flags precision value).mapError .template
  | .hexadecimal letter => (inBase 16 letter flags precision value).mapError .template
  | .real letter => real letter flags precision value

/-! ### Filling in -/

/-- The argument of a template, which can be taken once, and the table to look keys up in. -/
structure Supply where
  fields : Option (Entries Value)
  argument : Value
  taken : Bool

def Supply.ofValue (value : Value) : Supply :=
  match value with
  | .table _ entries => ⟨some entries, value, false⟩
  | _ => ⟨none, value, false⟩

def Supply.take (supply : Supply) : Except TemplateFault (Value × Supply) :=
  if supply.taken then .error .tooFewArguments
  else .ok (supply.argument, { supply with taken := true })

def Supply.select (supply : Supply) (key : Key) : Except TemplateFault Supply :=
  match key, supply.fields with
  | .absent, _ => .ok supply
  | _, none => .error .tableNeeded
  | .unclosed, some _ => .error .incompleteKey
  | .named name, some entries =>
    match name.plain?.bind fun text => Entries.get? text entries with
    | some value => .ok { supply with argument := value, taken := false }
    | none => .error (.unknownKey name)

def Supply.takeInteger (supply : Supply) : Except TemplateFault (Int × Supply) := do
  let (value, rest) ← supply.take
  match value.integer? with
  | some size => return (size, rest)
  | none => .error .starNeedsInteger

def largestPrecision : Nat := Nat.pow 2 31 - 1

/-- The width of a directive and whether it asks for alignment on the left. A negative width
does. -/
def Supply.width (supply : Supply) : Measure → Except TemplateFault (Nat × Bool × Supply)
  | .unset => .ok (0, false, supply)
  | .fixed size =>
    if Value.largestIndex < size then .error .widthTooLarge else .ok (size, false, supply)
  | .fromArgument => do
    let (size, rest) ← supply.takeInteger
    if (Value.largestIndex : Int) < size ∨ size < -(Value.largestIndex : Int) - 1 then
      .error .starTooLargeForWidth
    else return (size.natAbs, decide (size < 0), rest)

/-- The precision of a directive. A negative one counts as zero. -/
def Supply.precision (supply : Supply) : Measure → Except TemplateFault (Option Nat × Supply)
  | .unset => .ok (none, supply)
  | .fixed size =>
    if largestPrecision < size then .error .precisionTooLarge else .ok (some size, supply)
  | .fromArgument => do
    let (size, rest) ← supply.takeInteger
    if (largestPrecision : Int) < size ∨ size < -(largestPrecision : Int) - 1 then
      .error .starTooLargeForPrecision
    else return (some size.toNat, rest)

def fillDirective (template : List CodePoint) (written : Directive) (supply : Supply) :
    Except Fault (Content × Supply) := do
  let selected ← (supply.select written.key).mapError .template
  let (width, leftAligned, afterWidth) ← (selected.width written.width).mapError .template
  let (precision, afterPrecision) ← (afterWidth.precision written.precision).mapError .template
  match written.ending with
  | none => .error (.template .incompleteDirective)
  | some ending =>
    let (value, rest) ← afterPrecision.take.mapError .template
    match Conversion.of? ending.point with
    | none =>
      let index := template.length - ending.after.length - 1
      .error (.template (.unknownConversion ending.point index))
    | some conversion =>
      let flags :=
        { written.flags with leftAligned := written.flags.leftAligned || leftAligned }
      let converted ← convert conversion flags precision value
      if Value.memoryLimit < width then .error .memory
      else return (aligned flags width converted, rest)

/-- Fills the pieces of the given template in, one after another. At the end the argument must
have been taken, unless it is a table. -/
def fillPieces (template : List CodePoint) : List Piece → Supply → Except Fault (List Content)
  | [], supply =>
    if supply.taken || supply.fields.isSome then .ok []
    else .error (.template .unusedArgument)
  | .literal content :: others, supply => do
    let rest ← fillPieces template others supply
    return content :: rest
  | .directive written :: others, supply => do
    let (filled, left) ← fillDirective template written supply
    let rest ← fillPieces template others left
    return filled :: rest

end Template

def fillTemplate [Limits] (template : Content) (value : Value) : Except Fault Content := do
  let points := template.points
  let filled ← Template.fillPieces points (Template.pieces points)
    (Template.Supply.ofValue value)
  return Content.concat filled

end IndentScript
