import IndentScript.FileTree

/-!
Making chains of folders, and copying files and whole folders.

A copy of a folder goes on after a fault and reports all faults at its end. What was copied
until then stays.
-/

namespace IndentScript

inductive CopyFault where
  | path (fault : PathFault)
  /-- Source and target are one file; both are given as they are shown. -/
  | sameFile (source target : String)
  /-- The faults of a folder's parts, as they are shown. -/
  | parts (shown : List String)

def CopyFault.message : CopyFault → String
  | path fault => fault.message
  | sameFile source target => source ++ " and " ++ target ++ " are the same file"
  | parts shown => "[" ++ String.intercalate ", " shown ++ "]"

/-- Work on a file tree that may stop with a fault and then leaves the tree as far as it got. -/
abbrev Copying := ExceptT CopyFault (StateM FileTree)

namespace Copying

def change (operation : FileTree → Except PathFault FileTree) : Copying Unit := do
  match operation (← get) with
  | .ok tree => set tree
  | .error fault => throw (.path fault)

def attempt (action : Copying Unit) : Copying (Option CopyFault) := ExceptT.mk fun tree =>
  match action.run.run tree with
  | (.ok (), after) => (.ok none, after)
  | (.error fault, after) => (.ok (some fault), after)

/-! ### Paths -/

/-- A path inside another one; a path from the root stands alone. -/
def joined (outer inner : String) : String :=
  if inner.toList.head? = some '/' then inner
  else if outer.isEmpty ∨ outer.toList.getLast? = some '/' then outer ++ inner
  else outer ++ "/" ++ inner

/-- The path before the last slash, without further slashes at its end unless it has nothing
else, and what stands behind it. -/
def cutPath (path : String) : String × String :=
  let backward := path.toList.reverse
  let tail := (backward.takeWhile (· ≠ '/')).reverse
  let head := backward.dropWhile (· ≠ '/')
  let trimmed := head.dropWhile (· = '/')
  (String.ofList (if trimmed.isEmpty then head else trimmed).reverse, String.ofList tail)

/-- The folder part and the last name of a path, where slashes at its end do not count. -/
def cutName (path : String) : String × String :=
  let (head, tail) := cutPath path
  if tail.isEmpty then cutPath head else (head, tail)

/-! ### Folders -/

/-- Makes a folder; one that is there already is a fault unless `tolerant`. -/
def makeLast (tolerant : Bool) (path : String) : Copying Unit := do
  match ← attempt (change (·.makeFolder path)) with
  | none => return
  | some fault =>
    let tree ← get
    if !(tolerant && tree.leadsToFolder path) then throw fault

def makeFoldersWithin (tolerant : Bool) : Nat → String → Copying Unit
  | 0, path => makeLast tolerant path
  | budget + 1, path => do
    let (head, tail) := cutName path
    let tree ← get
    if head.isEmpty || tail.isEmpty || tree.leadsSomewhere head then makeLast tolerant path
    else
      match ← attempt (makeFoldersWithin tolerant budget head) with
      | none => pure ()
      | some (.path ⟨.present, _⟩) => pure ()
      | some fault => throw fault
      if tail ≠ "." then makeLast tolerant path

def makeFolders (tolerant : Bool) (path : String) : Copying Unit :=
  makeFoldersWithin tolerant path.length path

/-! ### Files -/

def lastName (path : String) : String :=
  (cutPath path).2

/-- Copies a file; `shown` is how messages show its path. A target that is a folder takes the
copy under the file's own name. -/
def copyFile (source shown target : String) : Copying Unit := do
  let tree ← get
  let place := if tree.leadsToFolder target then joined target (lastName source) else target
  match tree.resolve source, tree.resolve place with
  | .ok left, .ok right =>
    if left.place = right.place then throw (.sameFile shown (Text.quoted place))
  | _, _ => pure ()
  match tree.readBytes source with
  | .error fault => throw (.path fault)
  | .ok content => change (·.writeBytes place content)

/-- How the fault of a part is shown in the fault of the whole. A part that is its own target
comes out letter by letter. -/
def partsOf (source target : String) : CopyFault → List String
  | .parts shown => shown
  | .path fault =>
    ["(" ++ Text.quoted source ++ ", " ++ Text.quoted target ++ ", "
      ++ Text.quoted fault.message ++ ")"]
  | fault => fault.message.toList.map fun c => Text.quoted (String.singleton c)

/-- Copies a folder with all that is in it; `budget` bounds the depth. Folders that are there
already take the copies in. A folder copied into itself goes on until its path is too long. -/
def copyFolderWithin : Nat → String → String → Copying Unit
  | 0, source, _ => throw (.path ⟨.tooLong, source⟩)
  | budget + 1, source, target => do
    let tree ← get
    match tree.list source with
    | .error fault => throw (.path fault)
    | .ok names =>
      makeFolders true target
      let found ← names.mapM fun name => do
        let sourcePart := joined source name
        let targetPart := joined target name
        let tree ← get
        let fault ← attempt <|
          if tree.leadsToFolder sourcePart then copyFolderWithin budget sourcePart targetPart
          else copyFile sourcePart ("<DirEntry " ++ Text.quoted name ++ ">") targetPart
        return (fault.map (partsOf sourcePart targetPart)).getD []
      if !found.flatten.isEmpty then throw (.parts found.flatten)

/-- Copies a folder with all that is in it. A path has room for fewer folders than it has
bytes. -/
def copyFolder (source target : String) : Copying Unit :=
  copyFolderWithin FileTree.longestPath source target

end Copying

end IndentScript
