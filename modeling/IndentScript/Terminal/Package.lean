import IndentScript.FileTree.Copy
import IndentScript.Terminal
import IndentScript.Text.Words

/-!
Packages and installation. Packages are folders in the folder of packages; other programs fetch,
renew and remove them. An installation copies the files of the language and the packages to
another place.
-/

namespace IndentScript

namespace Dialog

/-! ### Other programs -/

inductive Ended where
  | well
  | badly

def started (command : List String) (folder : Option String) (terminal : Terminal) :
    ProgramEnd × Terminal :=
  let starts := terminal.started.push ⟨command, folder⟩
  let (ending, files) := terminal.programEnd starts terminal.files
  (ending, { terminal with started := starts, files := files })

/-- Starts a program. One that does not exist is a fault of the path that is its name, and an
interrupt of the program is one of the terminal. -/
def start (command : List String) (folder : Option String) : Dialog (Except PathFault Ended) := do
  let (ending, terminal) := started command folder (← get)
  set terminal
  match ending with
  | .success => return .ok .well
  | .failure => return .ok .badly
  | .notFound => return .error ⟨.missing, command.headD ""⟩
  | .refused cause => return .error cause
  | .interrupted => throw .interrupt

/-! ### Packages -/

def packagesFolder : String := "packages"

def packagePath (name : String) : String :=
  Copying.joined packagesFolder name

def backslashed (path : String) : String :=
  String.ofList (path.toList.map fun c => if c = '/' then '\\' else c)

def install (arguments : List String) : Dialog Unit := do
  match arguments with
  | name :: first :: others =>
    let address := Text.unwords (first :: others)
    let path := packagePath name
    let terminal ← get
    if terminal.files.leadsSomewhere path then say ("Package " ++ name ++ " is already installed")
    else
      match ← start ["git", "clone", address, path] none with
      | .ok .well => say ("Successfully installed " ++ name ++ " from " ++ address)
      | .ok .badly => say ("Failed to install " ++ name)
      | .error ⟨.missing, _⟩ => say "Git is not installed or not in PATH"
      | .error fault => throw (.path fault)
  | _ => say "Usage: :install <package_name> <github_url>"

def onPackage (name : String) (command : List String) (folder : Option String)
    (done failed : String) : Dialog Unit := do
  let terminal ← get
  if !terminal.files.leadsSomewhere (packagePath name) then
    say ("Package " ++ name ++ " not found")
  else
    match ← start command folder with
    | .ok .well => say (done ++ name)
    | .ok .badly => say (failed ++ name)
    | .error fault => throw (.path fault)

def uninstall (arguments : List String) : Dialog Unit := do
  match arguments with
  | name :: _ =>
    onPackage name ["rmdir", "/s", "/q", backslashed (packagePath name)] none "Uninstalled "
      "Failed to uninstall "
  | [] => say "Usage: :uninstall <package_name>"

def update (arguments : List String) : Dialog Unit := do
  match arguments with
  | name :: _ =>
    onPackage name ["git", "pull"] (some (packagePath name)) "Updated " "Failed to update "
  | [] => say "Usage: :update <package_name>"

def listPackages : Dialog Unit := do
  let terminal ← get
  if !terminal.files.leadsSomewhere packagesFolder then say "Packages directory not found"
  else
    match terminal.files.list packagesFolder with
    | .error fault => throw (.path fault)
    | .ok names =>
      let packages := names.filter fun name => terminal.files.leadsToFolder (packagePath name)
      if packages.isEmpty then say "No packages installed"
      else
        say "Installed packages:"
        packages.forM fun name => say ("  - " ++ name)

/-! ### Installation -/

def installedFiles : List String :=
  ["main.py", "terminal.py", "terminal.bat", "lexer.py", "parser_ll.py", "ast.py",
    "interpreter.py", "ffling.md", "test.ffling"]

def copyIfThere (target name : String) : Copying Unit := do
  if (← get).leadsSomewhere name then Copying.copyFile name (Text.quoted name) target

def installation (target : String) : Copying Unit := do
  if !(← get).leadsSomewhere target then Copying.makeFolders false target
  installedFiles.forM (copyIfThere target)
  if (← get).leadsSomewhere packagesFolder then
    Copying.copyFolder packagesFolder (Copying.joined target packagesFolder)

def setup (arguments : List String) : Dialog Unit := do
  match arguments with
  | target :: _ =>
    let terminal ← get
    let (outcome, files) := (installation target).run.run terminal.files
    set { terminal with files := files }
    match outcome with
    | .ok () => say ("FFling setup completed at " ++ target)
    | .error fault => say ("Setup error: " ++ fault.message)
  | [] => say "Usage: :setup <path>"

end Dialog

end IndentScript
