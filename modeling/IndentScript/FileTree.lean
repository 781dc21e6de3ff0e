import IndentScript.Entries
import IndentScript.Text.Lines
import IndentScript.Text.Quoted
import IndentScript.Text.Utf8

/-!
A tree of files and folders with a working folder.

A place is the list of names from the root. A path is a text with names between slashes; it is
followed from the root if it starts with a slash, and from the working folder otherwise. An
empty name and one dot stay where they are, two dots go up. Every name that is followed by
another one must lead to a folder.
-/

namespace IndentScript

inductive Item where
  | folder (entries : List (String × Item))
  | file (content : List UInt8)

abbrev Place := List String

structure FileTree where
  root : Item
  here : Place

inductive PathCause where
  | missing
  | present
  | notFolder
  | isFolder
  | tooLong
  /-- The path holds the character zero. -/
  | zeroCharacter
  deriving DecidableEq, Repr

structure PathFault where
  cause : PathCause
  path : String
  deriving DecidableEq, Repr

def PathFault.message (fault : PathFault) : String :=
  let numbered (reason : String) : String := "[Errno " ++ reason ++ ": " ++ Text.quoted fault.path
  match fault.cause with
  | .missing => numbered "2] No such file or directory"
  | .present => numbered "17] File exists"
  | .notFolder => numbered "20] Not a directory"
  | .isFolder => numbered "21] Is a directory"
  | .tooLong => numbered "36] File name too long"
  | .zeroCharacter => "embedded null byte"

namespace Item

def isFolder : Item → Bool
  | folder _ => true
  | file _ => false

/-- The item with `added` at the end of the given names, instead of what stands there. Nothing
changes below a file. -/
def put (added : Item) : Place → Item → Item
  | [], _ => added
  | name :: rest, folder entries =>
    let inner := (Entries.get? name entries).getD (folder [])
    folder (Entries.set name (put added rest inner) entries)
  | _ :: _, file content => file content

end Item

namespace FileTree

/-! ### Places -/

def put (tree : FileTree) (place : Place) (item : Item) : FileTree :=
  { tree with root := Item.put item place tree.root }

/-- The way from the root to an item: the names with what they lead to, the last one first. -/
abbrev Trail := List (String × Item)

def Trail.item (root : Item) : Trail → Item
  | [] => root
  | (_, item) :: _ => item

def Trail.place (trail : Trail) : Place :=
  (trail.map Prod.fst).reverse

def hereText (tree : FileTree) : String :=
  "/" ++ String.intercalate "/" tree.here

/-! ### Paths -/

/-- The names of a path, where `current` holds the name under way, last character first. -/
def namesFrom (current : List Char) : List Char → List String
  | [] => [String.ofList current.reverse]
  | c :: rest =>
    if c = '/' then String.ofList current.reverse :: namesFrom [] rest
    else namesFrom (c :: current) rest

/-- The names of a path, among them an empty one at either end for a slash there. -/
def namesOf (path : String) : List String :=
  namesFrom [] path.toList

def longestName : Nat := 255

def longestPath : Nat := 4095

def walk (root : Item) : Trail → List String → Except PathCause Trail
  | trail, [] => .ok trail
  | trail, name :: rest =>
    match trail.item root with
    | .file _ => .error .notFolder
    | .folder entries =>
      if name = "" ∨ name = "." then walk root trail rest
      else if name = ".." then walk root (trail.drop 1) rest
      else if longestName < name.utf8ByteSize then .error .tooLong
      else
        match Entries.get? name entries with
        | none => .error .missing
        | some item => walk root ((name, item) :: trail) rest

def checkedNames (path : String) : Except PathCause (List String) :=
  if path.toList.contains '\x00' then .error .zeroCharacter
  else if path.isEmpty then .error .missing
  else if longestPath < path.utf8ByteSize then .error .tooLong
  else .ok (namesOf path)

/-- The names of a path from the root: those of the working folder come first unless the path
starts with a slash. -/
def fromRoot (tree : FileTree) (path : String) (names : List String) : List String :=
  if path.toList.head? = some '/' then names else tree.here ++ names

structure Found where
  place : Place
  item : Item

def resolve (tree : FileTree) (path : String) : Except PathCause Found := do
  let names ← checkedNames path
  let trail ← walk tree.root [] (tree.fromRoot path names)
  return ⟨trail.place, trail.item tree.root⟩

def leadsSomewhere (tree : FileTree) (path : String) : Bool :=
  (tree.resolve path).toBool

def leadsToFolder (tree : FileTree) (path : String) : Bool :=
  match tree.resolve path with
  | .ok found => found.item.isFolder
  | .error _ => false

/-- The end of a path whose item may be missing: the folder with what is in it, the name, and
whether slashes follow the name. There is no name when the path ends in dots or has slashes
only. -/
structure Target where
  folder : Place
  entries : Entries Item
  name : Option String
  slashed : Bool

def target (tree : FileTree) (path : String) : Except PathCause Target := do
  let names ← checkedNames path
  let backward := names.reverse.dropWhile (· = "")
  let slashed := names.getLast? = some ""
  let trail ← walk tree.root [] (tree.fromRoot path (backward.drop 1).reverse)
  match trail.item tree.root with
  | .file _ => .error .notFolder
  | .folder entries =>
    match backward.head? with
    | none => return ⟨trail.place, entries, none, slashed⟩
    | some name =>
      if name = "." ∨ name = ".." then return ⟨trail.place, entries, none, slashed⟩
      else if longestName < name.utf8ByteSize then .error .tooLong
      else return ⟨trail.place, entries, some name, slashed⟩

/-! ### Operations -/

/-- The working folder as a path, unless the folder is gone: other programs can remove it. -/
def whereabouts? (tree : FileTree) : Option String :=
  match (walk tree.root [] tree.here).map (Trail.item tree.root) with
  | .ok (.folder _) => some tree.hereText
  | _ => none

def goneText : String := "[Errno 2] No such file or directory"

def enter (tree : FileTree) (path : String) : Except PathFault FileTree :=
  match tree.resolve path with
  | .error cause => .error ⟨cause, path⟩
  | .ok ⟨place, .folder _⟩ => .ok { tree with here := place }
  | .ok ⟨_, .file _⟩ => .error ⟨.notFolder, path⟩

def readBytes (tree : FileTree) (path : String) : Except PathFault (List UInt8) :=
  match tree.resolve path with
  | .error cause => .error ⟨cause, path⟩
  | .ok ⟨_, .file content⟩ => .ok content
  | .ok ⟨_, .folder _⟩ => .error ⟨.isFolder, path⟩

/-- Writes a file, which need not be there. -/
def writeBytes (tree : FileTree) (path : String) (content : List UInt8) :
    Except PathFault FileTree :=
  match tree.target path with
  | .error cause => .error ⟨cause, path⟩
  | .ok ⟨_, _, none, _⟩ => .error ⟨.isFolder, path⟩
  | .ok ⟨folder, entries, some name, slashed⟩ =>
    if slashed || (Entries.get? name entries).any Item.isFolder then .error ⟨.isFolder, path⟩
    else .ok (tree.put (folder ++ [name]) (.file content))

/-- Makes a folder, which must not be there. -/
def makeFolder (tree : FileTree) (path : String) : Except PathFault FileTree :=
  match tree.target path with
  | .error cause => .error ⟨cause, path⟩
  | .ok ⟨_, _, none, _⟩ => .error ⟨.present, path⟩
  | .ok ⟨folder, entries, some name, _⟩ =>
    if (Entries.get? name entries).isSome then .error ⟨.present, path⟩
    else .ok (tree.put (folder ++ [name]) (.folder []))

def list (tree : FileTree) (path : String) : Except PathFault (List String) :=
  match tree.resolve path with
  | .error cause => .error ⟨cause, path⟩
  | .ok ⟨_, .folder entries⟩ =>
    .ok ((Entries.names entries).mergeSort fun left right => decide (left ≤ right))
  | .ok ⟨_, .file _⟩ => .error ⟨.notFolder, path⟩

/-! ### Texts -/

inductive ReadFault where
  | path (fault : PathFault)
  | bytes (refusal : Text.Utf8.Refusal)

def reasonText : Text.Utf8.Reason → String
  | .invalidStart => "invalid start byte"
  | .invalidContinuation => "invalid continuation byte"
  | .unexpectedEnd => "unexpected end of data"

def refusalText (refusal : Text.Utf8.Refusal) : String :=
  let place :=
    if refusal.count = 1 then
      "byte 0x" ++ String.ofList (Text.hexadecimal 2 refusal.byte.toNat) ++ " in position "
        ++ toString refusal.position
    else
      "bytes in position " ++ toString refusal.position ++ "-"
        ++ toString (refusal.position + refusal.count - 1)
  "'utf-8' codec can't decode " ++ place ++ ": " ++ reasonText refusal.reason

def ReadFault.message : ReadFault → String
  | .path fault => fault.message
  | .bytes refusal => refusalText refusal

/-- The text of a file's bytes, with all line ends made the same. -/
def textOfBytes (content : List UInt8) : Except ReadFault String :=
  match Text.Utf8.decode content with
  | .error refusal => .error (.bytes refusal)
  | .ok characters => .ok (String.ofList (Text.uniformLineEnds characters))

def readText (tree : FileTree) (path : String) : Except ReadFault String := do
  let content ← (tree.readBytes path).mapError .path
  textOfBytes content

def writeText (tree : FileTree) (path text : String) : Except PathFault FileTree :=
  tree.writeBytes path (Text.Utf8.encode text)

end FileTree

end IndentScript
