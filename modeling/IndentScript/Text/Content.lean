import IndentScript.Text.Quoted
import IndentScript.Text.Repetition

/-!
Contents: texts of code points.

A code point is a character or one of the surrogates, which are no characters. Source texts and
input lines hold characters only; but a surrogate can be asked for by its code, and is then a
text like any other. A content without surrogates is held as a string.

What a content is made of are its `points`; no two contents have the same ones.
-/

namespace IndentScript

inductive CodePoint where
  | character (c : Char)
  /-- A surrogate, by its place among them. -/
  | surrogate (place : Fin 2048)
  deriving DecidableEq, Repr

namespace CodePoint

def firstSurrogate : Nat := 0xd800

def code : CodePoint → Nat
  | character c => c.toNat
  | surrogate place => firstSurrogate + place

def ofCode? (code : Nat) : Option CodePoint :=
  if h : code - firstSurrogate < 2048 ∧ firstSurrogate ≤ code then
    some (surrogate ⟨code - firstSurrogate, h.1⟩)
  else if code < 0x110000 then some (character (Char.ofNat code))
  else none

/-- A code point is found by its code. -/
theorem ofCode?_code (point : CodePoint) : ofCode? point.code = some point := by
  cases point with
  | character c =>
    have valid := c.valid
    have low : c.toNat = c.val.toNat := rfl
    simp only [UInt32.isValidChar, Nat.isValidChar] at valid
    have plain : ¬(c.toNat - firstSurrogate < 2048 ∧ firstSurrogate ≤ c.toNat) := by
      simp only [firstSurrogate]
      omega
    have small : c.toNat < 0x110000 := by omega
    simp [ofCode?, code, plain, small]
  | surrogate place => simp [ofCode?, code]

def isCharacter : CodePoint → Bool
  | character _ => true
  | surrogate _ => false

def character? : CodePoint → Option Char
  | character c => some c
  | surrogate _ => none

def quoted (mark : Char) : CodePoint → List Char
  | character c => Text.quotedCharacter mark c
  | surrogate place => '\\' :: 'u' :: Text.hexadecimal 4 (surrogate place).code

end CodePoint

inductive Content where
  | plain (text : String)
  /-- A text with a surrogate in it. -/
  | mixed (points : List CodePoint) (lacking : points.all CodePoint.isCharacter = false)
  deriving DecidableEq, Repr

namespace Content

instance : Coe String Content := ⟨plain⟩

instance : Inhabited Content := ⟨plain ""⟩

def points : Content → List CodePoint
  | plain text => text.toList.map .character
  | mixed points _ => points

def ofPoints (points : List CodePoint) : Content :=
  if h : points.all CodePoint.isCharacter then
    plain (String.ofList (points.filterMap CodePoint.character?))
  else mixed points (by simpa using h)

def isEmpty : Content → Bool
  | plain text => text.isEmpty
  | mixed _ _ => false

def length : Content → Nat
  | plain text => text.length
  | mixed points _ => points.length

def append : Content → Content → Content
  | plain left, plain right => plain (left ++ right)
  | left, right => ofPoints (left.points ++ right.points)

instance : Append Content := ⟨append⟩

def isPlain : Content → Bool
  | plain _ => true
  | mixed _ _ => false

def plain? : Content → Option String
  | plain text => some text
  | mixed _ _ => none

def concat (contents : List Content) : Content :=
  if contents.all isPlain then plain (String.join (contents.filterMap plain?))
  else ofPoints (contents.flatMap points)

def repeated (count : Nat) : Content → Content
  | plain text => plain (Text.repeated count text)
  | mixed points _ => ofPoints (List.replicate count points).flatten

def take (limit : Nat) (content : Content) : Content :=
  if content.length ≤ limit then content else ofPoints (content.points.take limit)

def order : Content → Content → Ordering
  | plain left, plain right => compare left right
  | left, right =>
    compareOfLessAndEq (left.points.map CodePoint.code) (right.points.map CodePoint.code)

/-- The quoted form of a content. Surrogates are written by their codes. -/
def quoted : Content → String
  | plain text => Text.quoted text
  | mixed points _ =>
    let mark := Text.quoteMark (points.filterMap CodePoint.character?)
    String.ofList (mark :: points.flatMap (CodePoint.quoted mark) ++ [mark])

/-- A content as characters only, for places that take no surrogates: these are written by their
codes. -/
def displayed : Content → String
  | plain text => text
  | mixed points _ => String.ofList (points.flatMap fun
    | .character c => [c]
    | .surrogate place => CodePoint.quoted '\'' (.surrogate place))

/-! ### Code points of contents -/

private theorem all_characters (characters : List Char) :
    (characters.map CodePoint.character).all CodePoint.isCharacter = true := by
  simp [CodePoint.isCharacter]

private theorem map_character?_of_all {points : List CodePoint}
    (all : points.all CodePoint.isCharacter = true) :
    (points.filterMap CodePoint.character?).map .character = points := by
  induction points with
  | nil => rfl
  | cons point rest ih =>
    cases point with
    | character c =>
      simp only [List.all_cons, Bool.and_eq_true] at all
      simp [CodePoint.character?, ih all.2]
    | surrogate place => simp [CodePoint.isCharacter] at all

@[simp]
theorem points_ofPoints (points : List CodePoint) : (ofPoints points).points = points := by
  unfold ofPoints
  split
  · rename_i all
    simp [Content.points, map_character?_of_all all]
  · rfl

@[simp]
theorem points_append (left right : Content) :
    (left ++ right).points = left.points ++ right.points := by
  show (append left right).points = _
  unfold append
  split
  · simp [Content.points]
  · simp

theorem length_points (content : Content) : content.points.length = content.length := by
  cases content with
  | plain text => simp [Content.points, Content.length, String.length_toList]
  | mixed points lacking => rfl

private theorem flatMap_points_of_plain {contents : List Content}
    (all : contents.all isPlain = true) :
    contents.flatMap points
      = ((contents.filterMap plain?).flatMap String.toList).map .character := by
  induction contents with
  | nil => rfl
  | cons content rest ih =>
    cases content with
    | plain text =>
      have others : rest.all isPlain = true := by simpa [isPlain] using all
      simp [plain?, Content.points, ih others]
    | mixed points lacking => simp [isPlain] at all

private theorem toList_join (texts : List String) :
    (String.join texts).toList = texts.flatMap String.toList := by
  simp [String.toList_join, List.flatMap]

@[simp]
theorem points_concat (contents : List Content) :
    (concat contents).points = contents.flatMap points := by
  unfold concat
  split
  · rename_i all
    rw [flatMap_points_of_plain all, ← toList_join]
    rfl
  · simp

@[simp]
theorem points_repeated (count : Nat) (content : Content) :
    (content.repeated count).points = (List.replicate count content.points).flatten := by
  cases content with
  | plain text => simp [repeated, Content.points, Text.toList_repeated, List.map_flatten]
  | mixed points lacking => exact points_ofPoints _

/-- The code points determine the content. -/
theorem eq_of_points_eq {left right : Content} (same : left.points = right.points) :
    left = right := by
  cases left with
  | plain text =>
    cases right with
    | plain other =>
      have inner : text.toList = other.toList := by
        have injective : ∀ a b, CodePoint.character a = CodePoint.character b → a = b := by
          intro a b equal
          cases equal
          rfl
        exact (List.map_inj_right injective).mp same
      rw [String.toList_inj.mp inner]
    | mixed points lacking =>
      have all := all_characters text.toList
      rw [show text.toList.map CodePoint.character = points from same, lacking] at all
      cases all
  | mixed points lacking =>
    cases right with
    | plain other =>
      have all := all_characters other.toList
      rw [← show points = other.toList.map CodePoint.character from same, lacking] at all
      cases all
    | mixed others _ =>
      cases show points = others from same
      rfl

theorem append_assoc (first second third : Content) :
    first ++ second ++ third = first ++ (second ++ third) :=
  eq_of_points_eq (by simp)

@[simp]
theorem append_empty (content : Content) : content ++ plain "" = content := by
  apply eq_of_points_eq
  rw [points_append]
  exact List.append_nil _

end Content

end IndentScript
