import IndentScript.Text.Blank

/-!
Words of a text: the longest runs of characters that are not blank. Also trimming and the
search for a part of a text.
-/

namespace IndentScript.Text

/-- The words of a text, where `current` holds the word under way, last character first. -/
def wordsFrom (current : List Char) : List Char → List String
  | [] => if current.isEmpty then [] else [String.ofList current.reverse]
  | c :: rest =>
    if isBlank c then
      if current.isEmpty then wordsFrom [] rest
      else String.ofList current.reverse :: wordsFrom [] rest
    else wordsFrom (c :: current) rest

def words (text : String) : List String :=
  wordsFrom [] text.toList

def trim (text : String) : String :=
  String.ofList ((text.toList.dropWhile isBlank).reverse.dropWhile isBlank).reverse

def standsIn (part : List Char) : List Char → Bool
  | [] => part.isEmpty
  | c :: rest => part.isPrefixOf (c :: rest) || standsIn part rest

def occursIn (part text : String) : Bool :=
  standsIn part.toList text.toList

def unwords (parts : List String) : String :=
  String.ofList (List.intercalate [' '] (parts.map String.toList))

end IndentScript.Text
