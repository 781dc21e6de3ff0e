import IndentScript.Proofs.TerminalSessions

/-!
Where the programs work that the commands on packages start. A path means a place as a text: its names
are followed one by one, without a look at what stands there, and a slash and a backslash both separate
names. How the name of a package leads on from the folder of packages is a number of folders up and a
way down. So the place is inside that folder exactly if the way down leads again through all that was
left on the way up, and on from there. Nothing about the name is checked.
-/

namespace IndentScript

/-! ### Places that are meant -/

namespace FileTree

/-- The names of a path, with separators of either kind between them. -/
def partsOf (path : String) : List String :=
  namesOf (String.ofList (path.toList.map fun c => if c = '\\' then '/' else c))

def isRooted (path : String) : Bool :=
  path.toList.head?.any fun c => c = '/' || c = '\\'

theorem namesFrom_append (current front back : List Char) :
    namesFrom current (front ++ '/' :: back) = namesFrom current front ++ namesFrom [] back := by
  induction front generalizing current with
  | nil => rfl
  | cons c rest ih =>
      by_cases slash : c = '/'
      · rw [List.cons_append, namesFrom, if_pos slash, ih, namesFrom, if_pos slash, List.cons_append]
      · rw [List.cons_append, namesFrom, if_neg slash, ih, namesFrom, if_neg slash]

theorem namesFrom_of_notMem {characters : List Char} (noSlash : '/' ∉ characters)
    (current : List Char) :
    namesFrom current characters = [String.ofList (current.reverse ++ characters)] := by
  induction characters generalizing current with
  | nil => rw [namesFrom, List.append_nil]
  | cons c rest ih =>
      obtain ⟨notSlash, later⟩ : '/' ≠ c ∧ '/' ∉ rest := by simpa using noSlash
      rw [namesFrom, if_neg (Ne.symm notSlash), ih later, List.reverse_cons, List.append_assoc]
      rfl

theorem partsOf_append_slash (front back : String) :
    partsOf (front ++ "/" ++ back) = partsOf front ++ partsOf back := by
  simp only [partsOf, namesOf, String.toList_append, String.toList_ofList, List.map_append,
    List.append_assoc]
  exact namesFrom_append [] _ _

theorem partsOf_of_notMem {path : String} (noSlash : '/' ∉ path.toList)
    (noBackslash : '\\' ∉ path.toList) : partsOf path = [path] := by
  have same : (path.toList.map fun c => if c = '\\' then '/' else c) = path.toList := by
    refine (List.map_congr_left fun c among => if_neg ?_).trans (List.map_id _)
    rintro rfl
    exact noBackslash among
  rw [partsOf, same, String.ofList_toList, namesOf, namesFrom_of_notMem noSlash, List.reverse_nil,
    List.nil_append, String.ofList_toList]

theorem partsOf_backslashed (path : String) : partsOf (Dialog.backslashed path) = partsOf path := by
  rw [partsOf, partsOf, Dialog.backslashed, String.toList_ofList, List.map_map]
  congr 3
  funext c
  by_cases slash : c = '/'
  · simp [slash]
  · simp [slash]

theorem isRooted_backslashed (path : String) :
    isRooted (Dialog.backslashed path) = isRooted path := by
  rw [isRooted, isRooted, Dialog.backslashed, String.toList_ofList, List.head?_map, Option.any_map]
  congr 1
  funext c
  by_cases slash : c = '/'
  · simp [slash]
  · simp [slash]

end FileTree

namespace Place

def step (place : Place) (name : String) : Place :=
  if name = "" ∨ name = "." then place
  else if name = ".." then place.dropLast
  else place ++ [name]

/-- The place that a path means as a text. -/
def meant (here : Place) (path : String) : Place :=
  (FileTree.partsOf path).foldl step (if FileTree.isRooted path then [] else here)

/-- The place is inside the folder at another place, and is not that place. -/
def IsInside (folder place : Place) : Prop :=
  ∃ rest, rest ≠ [] ∧ place = folder ++ rest

theorem isInside_nil_iff {place : Place} : IsInside [] place ↔ place ≠ [] := by
  constructor
  · rintro ⟨rest, goesOn, rfl⟩
    exact goesOn
  · intro goesOn
    exact ⟨place, goesOn, rfl⟩

end Place

/-! ### Courses -/

/-- How names lead away from a place: so many folders up, and then down. -/
structure Course where
  up : Nat
  down : Place

namespace Course

def step (course : Course) (name : String) : Course :=
  if name = "" ∨ name = "." then course
  else if name = ".." then
    if course.down = [] then ⟨course.up + 1, []⟩ else ⟨course.up, course.down.dropLast⟩
  else ⟨course.up, course.down ++ [name]⟩

def along (names : List String) : Course :=
  names.foldl step ⟨0, []⟩

def goal (course : Course) (place : Place) : Place :=
  place.take (place.length - course.up) ++ course.down

theorem goal_nil (course : Course) : course.goal [] = course.down := by
  rw [goal, List.take_nil, List.nil_append]

theorem goal_step (course : Course) (place : Place) (name : String) :
    (course.step name).goal place = (course.goal place).step name := by
  rw [step, Place.step]
  by_cases stays : name = "" ∨ name = "."
  · rw [if_pos stays, if_pos stays]
  · rw [if_neg stays, if_neg stays]
    by_cases goesUp : name = ".."
    · rw [if_pos goesUp, if_pos goesUp]
      by_cases above : course.down = []
      · have less : place.length - (course.up + 1) = min (min (place.length - course.up)
            place.length - 1) (place.length - course.up) := by omega
        rw [if_pos above, goal, goal, above, List.append_nil, List.append_nil,
          List.dropLast_eq_take, List.length_take, List.take_take, ← less]
      · rw [if_neg above, goal, goal, List.dropLast_append_of_ne_nil above]
    · rw [if_neg goesUp, if_neg goesUp, goal, goal, List.append_assoc]

theorem goal_foldl (names : List String) (course : Course) (place : Place) :
    (names.foldl step course).goal place = names.foldl Place.step (course.goal place) := by
  induction names generalizing course with
  | nil => rfl
  | cons name rest ih => rw [List.foldl_cons, List.foldl_cons, ih, goal_step]

theorem foldl_eq_goal_along (names : List String) (place : Place) :
    names.foldl Place.step place = (along names).goal place := by
  rw [along, goal_foldl, goal, Nat.sub_zero, List.take_length, List.append_nil]

/-- A name that is no way anywhere else leads down. -/
theorem along_singleton {name : String} (plain : name ∉ ["", ".", ".."]) : along [name] = ⟨0, [name]⟩ := by
  obtain ⟨notEmpty, notDot, notDots⟩ : name ≠ "" ∧ name ≠ "." ∧ name ≠ ".." := by simpa using plain
  have stays : ¬(name = "" ∨ name = ".") := not_or.mpr ⟨notEmpty, notDot⟩
  rw [along, List.foldl_cons, List.foldl_nil, step, if_neg stays, if_neg notDots, List.nil_append]

/-- What was left on the way up must be passed again on the way down. -/
theorem isInside_goal_iff (course : Course) (folder : Place) :
    folder.IsInside (course.goal folder) ↔
      Place.IsInside (folder.drop (folder.length - course.up)) course.down := by
  -- the goal keeps the front of the folder, so only the part that was left is to be compared
  have split := List.take_append_drop (folder.length - course.up) folder
  constructor
  · rintro ⟨rest, goesOn, same⟩
    refine ⟨rest, goesOn, ?_⟩
    rw [goal] at same
    refine List.append_cancel_left (same.trans ?_)
    rw [← List.append_assoc, split]
  · rintro ⟨rest, goesOn, same⟩
    refine ⟨rest, goesOn, ?_⟩
    rw [goal, same, ← List.append_assoc, split]

end Course

/-! ### Started programs -/

/-- The path that a started program works on: that of its folder, or else its last argument. -/
def ProgramStart.target (start : ProgramStart) : String :=
  start.folder.getD (start.command.getLastD "")

def Command.packageStart? : Command → List String → Option ProgramStart
  | .install, name :: first :: others =>
    some ⟨["git", "clone", Text.unwords (first :: others), Dialog.packagePath name], none⟩
  | .uninstall, name :: _ =>
    some ⟨["rmdir", "/s", "/q", Dialog.backslashed (Dialog.packagePath name)], none⟩
  | .update, name :: _ => some ⟨["git", "pull"], some (Dialog.packagePath name)⟩
  | _, _ => none

def Command.wantsPackage : Command → Bool
  | .uninstall | .update => true
  | _ => false

/-- The program that a command on packages starts, if the package is there or not, as it has to be. -/
def Terminal.packageStart? (terminal : Terminal) (command : Command) (arguments : List String) :
    Option ProgramStart :=
  if terminal.files.leadsSomewhere (Dialog.packagePath (arguments.headD "")) = command.wantsPackage
  then command.packageStart? arguments
  else none

theorem Terminal.packageStart?_eq_none {command : Command} {arguments : List String}
    (nothing : command.packageStart? arguments = none) (terminal : Terminal) :
    terminal.packageStart? command arguments = none := by
  rw [packageStart?, nothing, ite_self]

theorem Terminal.toList_packageStart?_cons {command : Command} {name : String} {rest : List String}
    {start : ProgramStart} (found : command.packageStart? (name :: rest) = some start)
    (terminal : Terminal) :
    (terminal.packageStart? command (name :: rest)).toList =
      if terminal.files.leadsSomewhere (Dialog.packagePath name) = command.wantsPackage then [start]
      else [] := by
  rw [packageStart?, found, apply_ite Option.toList]
  rfl

namespace Dialog

section

variable {α β : Type} {terminal : Terminal} {programs : List ProgramStart}

/-- On the terminal the dialog starts these programs, also when it does not finish. -/
def Spawns (programs : List ProgramStart) (dialog : Dialog α) (terminal : Terminal) : Prop :=
  (dialog.run.run terminal).2.started.toList = terminal.started.toList ++ programs

theorem Spawns.say (text : Content) : Spawns [] (say text) terminal :=
  (List.append_nil _).symm

theorem Spawns.throw (escape : Escape) : Spawns [] (throw escape : Dialog α) terminal :=
  (List.append_nil _).symm

theorem Spawns.read {next : Terminal → Dialog β} (spawns : Spawns programs (next terminal) terminal) :
    Spawns programs (get >>= next) terminal :=
  spawns

theorem Spawns.bind {first : Dialog α} {next : α → Dialog β} (spawns : Spawns programs first terminal)
    (silent : ∀ found middle, Spawns [] (next found) middle) :
    Spawns programs (first >>= next) terminal := by
  unfold Spawns at *
  cases ran : first.run.run terminal with
  | mk ended middle =>
      rw [ran] at spawns
      cases ended with
      | ok found =>
          rw [Run.run_bind_ok ran, silent found middle, List.append_nil]
          exact spawns
      | error escape =>
          rw [Run.run_bind_error ran]
          exact spawns

theorem spawns_start (command : List String) (folder : Option String) :
    Spawns [⟨command, folder⟩] (start command folder) terminal := by
  apply Spawns.read
  have noted : Spawns [⟨command, folder⟩] (set (started command folder terminal).2) terminal :=
    Array.toList_push
  apply noted.bind
  intro _ middle
  split
  · exact (List.append_nil _).symm
  · exact (List.append_nil _).symm
  · exact (List.append_nil _).symm
  · exact (List.append_nil _).symm
  · exact Spawns.throw _

theorem spawns_install (arguments : List String) :
    Spawns (terminal.packageStart? .install arguments).toList (install arguments) terminal := by
  cases arguments with
  | nil =>
      rw [Terminal.packageStart?_eq_none rfl]
      exact Spawns.say _
  | cons name rest =>
      cases rest with
      | nil =>
          rw [Terminal.packageStart?_eq_none rfl]
          exact Spawns.say _
      | cons first others =>
          apply Spawns.read
          rw [Terminal.toList_packageStart?_cons rfl]
          cases terminal.files.leadsSomewhere (packagePath name) with
          | true => exact Spawns.say _
          | false =>
              apply (spawns_start _ _).bind
              intro ended middle
              split
              · exact Spawns.say _
              · exact Spawns.say _
              · exact Spawns.say _
              · exact Spawns.throw _

theorem spawns_onPackage (name : String) (command : List String) (folder : Option String)
    (done failed : String) :
    Spawns (if terminal.files.leadsSomewhere (packagePath name) then [⟨command, folder⟩] else [])
      (onPackage name command folder done failed) terminal := by
  apply Spawns.read
  cases terminal.files.leadsSomewhere (packagePath name) with
  | false => exact Spawns.say _
  | true =>
      apply (spawns_start _ _).bind
      intro ended middle
      split
      · exact Spawns.say _
      · exact Spawns.say _
      · exact Spawns.throw _

theorem spawns_perform [Limits] {command : Command}
    (onPackages : command ∈ [.install, .uninstall, .update]) (arguments : List String) :
    Spawns (terminal.packageStart? command arguments).toList (perform command arguments) terminal := by
  have known : command = .install ∨ command = .uninstall ∨ command = .update := by
    simpa using onPackages
  rcases known with rfl | rfl | rfl
  · exact spawns_install arguments
  · cases arguments with
    | nil =>
        rw [Terminal.packageStart?_eq_none rfl]
        exact Spawns.say _
    | cons name rest =>
        rw [Terminal.toList_packageStart?_cons rfl]
        exact spawns_onPackage name _ _ _ _
  · cases arguments with
    | nil =>
        rw [Terminal.packageStart?_eq_none rfl]
        exact Spawns.say _
    | cons name rest =>
        rw [Terminal.toList_packageStart?_cons rfl]
        exact spawns_onPackage name _ _ _ _

end

end Dialog

/-! ### Targets -/

namespace Place

theorem meant_packagePath (here : Place) (name : String) :
    here.meant (Dialog.packagePath name) =
      if name.toList.head? = some '/' then (Course.along (FileTree.partsOf name)).down
      else (Course.along (FileTree.partsOf name)).goal (here ++ [Dialog.packagesFolder]) := by
  rw [Dialog.packagePath, Copying.joined]
  by_cases rooted : name.toList.head? = some '/'
  · have isRooted : FileTree.isRooted name = true := by
      rw [FileTree.isRooted, rooted]
      rfl
    rw [if_pos rooted, if_pos rooted, meant, isRooted, if_pos rfl, Course.foldl_eq_goal_along,
      Course.goal_nil]
  · have outer : ¬(Dialog.packagesFolder.isEmpty = true ∨
        Dialog.packagesFolder.toList.getLast? = some '/') := by decide
    have parts : FileTree.partsOf Dialog.packagesFolder = [Dialog.packagesFolder] :=
      FileTree.partsOf_of_notMem (by decide) (by decide)
    have notRooted : FileTree.isRooted (Dialog.packagesFolder ++ "/" ++ name) = false := by
      rw [FileTree.isRooted, String.toList_append, String.toList_append, List.head?_append,
        List.head?_append]
      rfl
    have goesDown : here.step Dialog.packagesFolder = here ++ [Dialog.packagesFolder] := by
      rw [step, if_neg (by decide), if_neg (by decide)]
    rw [if_neg rooted, if_neg rooted, if_neg outer, meant, notRooted, if_neg Bool.false_ne_true,
      FileTree.partsOf_append_slash, parts, List.singleton_append, List.foldl_cons, goesDown,
      Course.foldl_eq_goal_along]

theorem meant_backslashed (here : Place) (path : String) :
    here.meant (Dialog.backslashed path) = here.meant path := by
  rw [meant, meant, FileTree.partsOf_backslashed, FileTree.isRooted_backslashed]

end Place

/-- Every program that is started for a package works on the path of the package. -/
theorem Command.meant_target_packageStart? {command : Command} {arguments : List String}
    {start : ProgramStart} (found : command.packageStart? arguments = some start) (here : Place) :
    ∃ name others, arguments = name :: others ∧
      here.meant start.target = here.meant (Dialog.packagePath name) := by
  cases arguments with
  | nil => cases command <;> cases found
  | cons name rest =>
      refine ⟨name, rest, rfl, ?_⟩
      cases command with
      | install =>
          cases rest with
          | nil => cases found
          | cons first others =>
              cases found
              rfl
      | uninstall =>
          cases found
          exact Place.meant_backslashed here _
      | update =>
          cases found
          rfl
      | _ => cases found

namespace Terminal

/-- Whatever stands in the file tree, a command on packages starts at most one program. The place that
its target means is where the name of the package leads from the folder of packages, or from the root.
It is inside the folder of packages exactly if the way down leads through all that was left on the way
up and on from there: so for a name that never goes up, exactly if it goes down at all, and always for
a name that is one part and no dots. -/
theorem packages_targets [Limits] {line : String} {command : Command} {arguments : List String}
    (isCommand : Command.ofLine? line = some (command, arguments))
    (onPackages : command ∈ [.install, .uninstall, .update]) (terminal : Terminal) :
    let here := terminal.files.here
    let packages := here ++ [Dialog.packagesFolder]
    ((Dialog.command line).run.run terminal).2.started.toList =
        terminal.started.toList ++ (terminal.packageStart? command arguments).toList ∧
      ∀ start, terminal.packageStart? command arguments = some start →
        ∃ name others, arguments = name :: others ∧
          let course := Course.along (FileTree.partsOf name)
          let target := here.meant start.target
          (name.toList.head? = some '/' → target = course.down) ∧
          (name.toList.head? ≠ some '/' → target = course.goal packages ∧
            (packages.IsInside target ↔
              Place.IsInside (packages.drop (packages.length - course.up)) course.down) ∧
            (course.up = 0 → (packages.IsInside target ↔ course.down ≠ []))) ∧
          ('/' ∉ name.toList → '\\' ∉ name.toList → name ∉ ["", ".", ".."] →
            target = packages ++ [name]) := by
  intro here packages
  constructor
  · rw [Dialog.command_of_ofLine? isCommand]
    exact Dialog.spawns_perform onPackages arguments
  · intro start found
    have toStart : command.packageStart? arguments = some start := by
      rw [packageStart?] at found
      by_cases fits : terminal.files.leadsSomewhere
          (Dialog.packagePath (arguments.headD "")) = command.wantsPackage
      · rwa [if_pos fits] at found
      · rw [if_neg fits] at found
        cases found
    obtain ⟨name, others, given, same⟩ := Command.meant_target_packageStart? toStart here
    refine ⟨name, others, given, ?_⟩
    intro course target
    have meant : target = if name.toList.head? = some '/' then course.down
        else course.goal packages := same.trans (Place.meant_packagePath here name)
    refine ⟨fun rooted => by rw [meant, if_pos rooted], fun notRooted => ?_, ?_⟩
    · have reached : target = course.goal packages := by rw [meant, if_neg notRooted]
      have inside := course.isInside_goal_iff packages
      rw [← reached] at inside
      refine ⟨reached, inside, fun stays => ?_⟩
      rw [inside, stays, Nat.sub_zero, List.drop_length]
      exact Place.isInside_nil_iff
    · intro noSlash noBackslash plain
      have notRooted : name.toList.head? ≠ some '/' :=
        fun first => noSlash (List.mem_of_mem_head? first)
      have straight : course = ⟨0, [name]⟩ := by
        change Course.along (FileTree.partsOf name) = _
        rw [FileTree.partsOf_of_notMem noSlash noBackslash, Course.along_singleton plain]
      rw [meant, if_neg notRooted, straight, Course.goal, Nat.sub_zero, List.take_length]

def withPackage (name : String) : Terminal :=
  .new {} ⟨.folder [("w", .folder [(Dialog.packagesFolder, .folder [(name, .folder [])])])], ["w"]⟩

/-- The name has a dot and an empty part, which lead nowhere. -/
theorem packages_targets_kit :
    let terminal := withPackage "kit"
    let start : ProgramStart := ⟨["rmdir", "/s", "/q", "packages\\kit\\\\."], none⟩
    Command.ofLine? "Uninstall kit//. now" = some (.uninstall, ["kit//.", "now"]) ∧
      ((Dialog.command "Uninstall kit//. now").run.run terminal).2.started.toList = [start] ∧
      Place.IsInside ["w", "packages"] (Place.meant ["w"] start.target) := by
  intro terminal start
  have isCommand : Command.ofLine? "Uninstall kit//. now" =
      some (.uninstall, ["kit//.", "now"]) := by decide +kernel
  have found : terminal.packageStart? .uninstall ["kit//.", "now"] = some start := by decide +kernel
  obtain ⟨started, targets⟩ := packages_targets isCommand (by decide) terminal
  obtain ⟨name, others, given, _, relative, _⟩ := targets start found
  cases given
  rw [found] at started
  refine ⟨isCommand, started, ?_⟩
  obtain ⟨_, _, inside⟩ := relative (by decide)
  exact (inside (by decide +kernel)).mpr (by decide +kernel)

/-- Names of packages that lead to the working folder, to a place beside the folder of packages, and
to that folder itself. -/
theorem packages_left_by_targets :
    let targets := fun line => ((Dialog.command line).run.run (withPackage "kit")).2.started.toList.map
      fun start => Place.meant ["w"] start.target
    targets "uninstall .." = [["w"]] ∧ targets "update /w" = [["w"]] ∧
      targets "install ../kit u" = [["w", "kit"]] ∧ targets "uninstall ." = [["w", "packages"]] ∧
      ∀ place ∈ [["w"], ["w", "kit"], ["w", "packages"]], ¬Place.IsInside ["w", "packages"] place := by
  refine ⟨?_, ?_, ?_, ?_, ?_⟩
  · decide +kernel
  · decide +kernel
  · decide +kernel
  · decide +kernel
  · rintro place among ⟨rest, goesOn, rfl⟩
    simp [goesOn] at among

end Terminal

end IndentScript
