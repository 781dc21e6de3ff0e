import IndentScript.Proofs.TypedEntries

/-!
What commands do to a terminal.

The core of a terminal is what a user's work depends on: the variables, the lines still to be read,
the history and the open entry. Few steps of a command touch it. They are its deeds, and `doings`
lists them with the terminals that they find. Everything else that a command does leaves the core
alone: `perform_through` says so once for all commands, and what holds of the core is derived from
the deeds.
-/

namespace IndentScript

def Escape.isPassing : Escape → Bool
  | .quit | .unfinished => false
  | .interrupt | .fault _ | .path _ => true

def Escape.isFault : Escape → Bool
  | .fault _ | .path _ => true
  | .quit | .interrupt | .unfinished => false

namespace Terminal

structure Core where
  scopes : Scopes
  input : List (Option String)
  history : Array String
  pending : String
  continued : Bool

def core (terminal : Terminal) : Core :=
  ⟨terminal.machine.scopes, terminal.machine.console.input, terminal.history, terminal.pending,
    terminal.continued⟩

end Terminal

/-! ### Quiet dialogs -/

namespace Dialog

section

variable {α β : Type} {terminal : Terminal}

/-- On the terminal the dialog leaves the core alone and does not end what it is part of. -/
structure Quiet (dialog : Dialog α) (terminal : Terminal) : Prop where
  core : (dialog.run.run terminal).2.core = terminal.core
  passing : ∀ escape, (dialog.run.run terminal).1 = .error escape → escape.isPassing = true

theorem Quiet.pure (found : α) : Quiet (Pure.pure found) terminal := by
  constructor
  · rfl
  · intro escape escaped
    cases escaped

theorem Quiet.throw {signal : Escape} (passing : signal.isPassing = true) :
    Quiet (throw signal : Dialog α) terminal := by
  constructor
  · rfl
  · intro escape escaped
    cases escaped
    exact passing

theorem Quiet.read {next : Terminal → Dialog β} (quiet : Quiet (next terminal) terminal) :
    Quiet (get >>= next) terminal :=
  ⟨quiet.core, quiet.passing⟩

theorem Quiet.bind {first : Dialog α} {next : α → Dialog β} (quiet : Quiet first terminal)
    (quietNext : ∀ found middle, first.run.run terminal = (.ok found, middle) →
      Quiet (next found) middle) : Quiet (first >>= next) terminal := by
  have same := quiet.core
  have passing := quiet.passing
  cases ran : first.run.run terminal with
  | mk ended middle =>
      rw [ran] at same passing
      cases ended with
      | ok found =>
          have later := quietNext found middle ran
          constructor
          · rw [Run.run_bind_ok ran, later.core]
            exact same
          · rw [Run.run_bind_ok ran]
            exact later.passing
      | error escape =>
          constructor
          · rw [Run.run_bind_error ran]
            exact same
          · rw [Run.run_bind_error ran]
            intro signal same
            cases same
            exact passing escape rfl

theorem Quiet.withFiles {next : Dialog Unit} (files : FileTree)
    (quiet : ∀ terminal, Quiet next terminal) :
    Quiet (set { terminal with files := files } >>= fun _ => next) terminal :=
  ⟨(quiet { terminal with files := files }).core, (quiet { terminal with files := files }).passing⟩

theorem Quiet.forM {step : α → Dialog Unit} (items : List α)
    (quiet : ∀ item terminal, Quiet (step item) terminal) : Quiet (items.forM step) terminal := by
  induction items generalizing terminal with
  | nil => exact Quiet.pure ()
  | cons item rest ih => exact (quiet item terminal).bind fun _ _ _ => ih

theorem quiet_write (text : Content) : Quiet (write text) terminal := by
  constructor
  · rfl
  · intro escape escaped
    cases escaped

theorem quiet_say (text : Content) : Quiet (say text) terminal :=
  quiet_write _

theorem quiet_time : Quiet time terminal := by
  constructor
  · rfl
  · intro escape escaped
    cases escaped

theorem quiet_showHistory : Quiet showHistory terminal :=
  Quiet.read (Quiet.forM _ fun _ _ => quiet_say _)

theorem quiet_searchHistory (arguments : List String) : Quiet (searchHistory arguments) terminal := by
  cases arguments with
  | nil => exact quiet_say _
  | cons part rest => exact Quiet.read (Quiet.forM _ fun _ _ => quiet_say _)

theorem quiet_goto (arguments : List String) : Quiet (goto arguments) terminal := by
  cases arguments with
  | nil => exact quiet_say _
  | cons path rest =>
      apply Quiet.read
      split
      · exact quiet_say _
      · split
        · exact Quiet.withFiles _ fun _ => quiet_say _
        · exact Quiet.throw rfl
        · exact quiet_say _

theorem quiet_save (arguments : List String) : Quiet (save arguments) terminal := by
  unfold save
  split
  · exact quiet_say _
  · apply Quiet.read
    split
    · exact Quiet.withFiles _ fun _ => quiet_say _
    · exact quiet_say _

/-! Other programs and files. -/

theorem quiet_start (command : List String) (folder : Option String) :
    Quiet (start command folder) terminal := by
  apply Quiet.read
  have noted : Quiet (set (started command folder terminal).2) terminal := by
    constructor
    · rfl
    · intro escape escaped
      cases escaped
  apply noted.bind
  intro _ middle _
  split
  · exact Quiet.pure _
  · exact Quiet.pure _
  · exact Quiet.pure _
  · exact Quiet.pure _
  · exact Quiet.throw rfl

theorem quiet_install (arguments : List String) : Quiet (install arguments) terminal := by
  unfold install
  split
  · apply Quiet.read
    split
    · exact quiet_say _
    · apply (quiet_start _ _).bind
      intro ended middle _
      split
      · exact quiet_say _
      · exact quiet_say _
      · exact quiet_say _
      · exact Quiet.throw rfl
  · exact quiet_say _

theorem quiet_onPackage (name : String) (command : List String) (folder : Option String)
    (done failed : String) : Quiet (onPackage name command folder done failed) terminal := by
  apply Quiet.read
  split
  · exact quiet_say _
  · apply (quiet_start _ _).bind
    intro ended middle _
    split
    · exact quiet_say _
    · exact quiet_say _
    · exact Quiet.throw rfl

theorem quiet_uninstall (arguments : List String) : Quiet (uninstall arguments) terminal := by
  cases arguments with
  | nil => exact quiet_say _
  | cons name rest => exact quiet_onPackage name _ _ _ _

theorem quiet_update (arguments : List String) : Quiet (update arguments) terminal := by
  cases arguments with
  | nil => exact quiet_say _
  | cons name rest => exact quiet_onPackage name _ _ _ _

theorem quiet_listPackages : Quiet listPackages terminal := by
  apply Quiet.read
  split
  · exact quiet_say _
  · split
    · exact Quiet.throw rfl
    · dsimp only
      split
      · exact quiet_say _
      · exact (quiet_say _).bind fun _ _ _ => Quiet.forM _ fun _ _ => quiet_say _

theorem quiet_setup (arguments : List String) : Quiet (setup arguments) terminal := by
  cases arguments with
  | nil => exact quiet_say _
  | cons target rest =>
      apply Quiet.read
      apply Quiet.withFiles
      intro changed
      split
      · exact quiet_say _
      · exact quiet_say _

end

end Dialog

/-! ### Deeds -/

inductive Deed where
  | feed (text : String)
  | reset
  /-- Empties the history. -/
  | forget
  | quit
  | record (line : String)

variable [Limits]

def Deed.act : Deed → Dialog Unit
  | .feed text => Dialog.feed text
  | .reset =>
    modify fun terminal =>
      { terminal with
        machine := .new terminal.machine.console
        pending := ""
        continued := false }
  | .forget => modify fun terminal => { terminal with history := #[] }
  | .quit => throw .quit
  | .record line => Dialog.record line

/-- A deed with the terminal that it finds. -/
structure Doing where
  terminal : Terminal
  deed : Deed

def Doing.result (doing : Doing) : Except Escape Unit × Terminal :=
  doing.deed.act.run.run doing.terminal

/-- The deeds, in order, are all that has touched the core between a terminal and a result. Behind a
deed that is at fault it may go on, if the fault is reported; another escape is that of the result. -/
inductive Through : Terminal → List Doing → Except Escape Unit × Terminal → Prop where
  | idle {before : Terminal} {result : Except Escape Unit × Terminal} :
    result.2.core = before.core → (∀ escape, result.1 = .error escape → escape.isPassing = true) →
    Through before [] result
  | done {before middle : Terminal} {doing : Doing} {rest : List Doing}
      {result : Except Escape Unit × Terminal} :
    doing.terminal.core = before.core → doing.result = (.ok (), middle) →
    Through middle rest result → Through before (doing :: rest) result
  | reported {before middle : Terminal} {doing : Doing} {rest : List Doing} {escape : Escape}
      {result : Except Escape Unit × Terminal} :
    doing.terminal.core = before.core → doing.result = (.error escape, middle) →
    escape.isFault = true → Through middle rest result → Through before (doing :: rest) result
  | escaped {before middle after : Terminal} {doing : Doing} {escape : Escape} :
    doing.terminal.core = before.core → doing.result = (.error escape, middle) →
    after.core = middle.core → Through before [doing] (.error escape, after)

namespace Through

open Dialog (Quiet)

variable {before middle : Terminal} {doings rest : List Doing}
  {result : Except Escape Unit × Terminal}

theorem of_core (through : Through middle doings result) (same : middle.core = before.core) :
    Through before doings result := by
  cases through with
  | idle kept passing => exact .idle (kept.trans same) passing
  | done found ran later => exact .done (found.trans same) ran later
  | reported found ran fault later => exact .reported (found.trans same) ran fault later
  | escaped found ran kept => exact .escaped (found.trans same) ran kept

theorem append (through : Through before doings (.ok (), middle)) (later : Through middle rest result) :
    Through before (doings ++ rest) result := by
  generalize ended : ((.ok (), middle) : Except Escape Unit × Terminal) = first at through
  induction through with
  | idle kept passing =>
      subst ended
      exact later.of_core kept
  | done found ran _ ih => exact .done found ran (ih ended)
  | reported found ran fault _ ih => exact .reported found ran fault (ih ended)
  | escaped found ran kept => cases ended

theorem of_quiet {dialog : Dialog Unit} (quiet : Quiet dialog before) :
    Through before [] (dialog.run.run before) :=
  .idle quiet.core quiet.passing

theorem of_deed (deed : Deed) (terminal : Terminal) :
    Through terminal [⟨terminal, deed⟩] (deed.act.run.run terminal) := by
  have result : Doing.result ⟨terminal, deed⟩ = deed.act.run.run terminal := rfl
  cases ran : deed.act.run.run terminal with
  | mk ended left =>
      rw [ran] at result
      cases ended with
      | ok _ =>
          refine .done rfl result (.idle rfl ?_)
          intro escape escaped
          cases escaped
      | error escape => exact .escaped rfl result rfl

/-- Quiet steps may come behind the deeds. -/
theorem bind_quiet {first next : Dialog Unit} (through : Through before doings (first.run.run before))
    (quiet : ∀ terminal, Quiet next terminal) :
    Through before doings ((first >>= fun _ => next).run.run before) := by
  cases ran : first.run.run before with
  | mk ended middle =>
      rw [ran] at through
      cases ended with
      | ok _ =>
          have whole := through.append (of_quiet (quiet middle))
          rw [List.append_nil] at whole
          rw [Run.run_bind_ok ran]
          exact whole
      | error escape =>
          rw [Run.run_bind_error ran]
          exact through

/-- Quiet steps may come before the deeds. -/
theorem of_quiet_bind {α : Type} {first : Dialog α} {next : α → Dialog Unit} {found : α}
    (quiet : Quiet first before) (ran : first.run.run before = (.ok found, middle))
    (through : Through middle doings ((next found).run.run middle)) :
    Through before doings ((first >>= next).run.run before) := by
  have same := quiet.core
  rw [ran] at same
  rw [Run.run_bind_ok ran]
  exact through.of_core same

/-- A fault that was to escape is reported. -/
theorem report {escape : Escape} {left after : Terminal}
    (through : Through before doings (.error escape, left)) (fault : escape.isFault = true)
    (same : after.core = left.core) : Through before doings (.ok (), after) := by
  generalize ended : ((.error escape, left) : Except Escape Unit × Terminal) = first at through
  induction through with
  | idle kept passing =>
      subst ended
      refine .idle (same.trans kept) ?_
      intro other escaped
      cases escaped
  | done found ran _ ih => exact .done found ran (ih ended)
  | reported found ran isFault _ ih => exact .reported found ran isFault (ih ended)
  | escaped found ran kept =>
      cases ended
      refine .reported found ran fault (.idle (same.trans kept) ?_)
      intro other escaped
      cases escaped

theorem reportingEscape {intro : String} {action : Dialog Unit}
    (through : Through before doings (action.run.run before)) :
    Through before doings ((Dialog.reportingEscape intro action).run.run before) := by
  rw [Dialog.reportingEscape, ExceptT.run_mk]
  cases ran : action.run.run before with
  | mk ended left =>
      rw [ran] at through
      simp only [StateT.run] at ran ⊢
      rw [ran]
      cases ended with
      | ok _ => exact through
      | error escape =>
          cases escape with
          | fault cause => exact through.report rfl rfl
          | path cause => exact through.report rfl rfl
          | quit => exact through
          | interrupt => exact through
          | unfinished => exact through

/-- What every deed keeps in step with a state that goes along with the deeds, a result keeps. -/
theorem foldl {State : Type} (held : State → Terminal.Core → Prop) (step : State → Doing → State)
    (through : Through before doings result)
    (kept : ∀ doing ∈ doings, ∀ state, held state doing.terminal.core →
      held (step state doing) doing.result.2.core)
    (state : State) (holds : held state before.core) :
    held (doings.foldl step state) result.2.core := by
  induction through generalizing state with
  | idle same passing =>
      rw [same]
      exact holds
  | done found ran _ ih =>
      rw [← found] at holds
      have next := kept _ List.mem_cons_self state holds
      rw [ran] at next
      exact ih (fun doing member => kept doing (List.mem_cons_of_mem _ member)) _ next
  | reported found ran fault _ ih =>
      rw [← found] at holds
      have next := kept _ List.mem_cons_self state holds
      rw [ran] at next
      exact ih (fun doing member => kept doing (List.mem_cons_of_mem _ member)) _ next
  | escaped found ran same =>
      rw [← found] at holds
      have next := kept _ List.mem_cons_self state holds
      rw [ran] at next
      rw [same]
      exact next

/-- What every deed keeps, a result keeps. -/
theorem keep (held : Terminal.Core → Prop) (through : Through before doings result)
    (kept : ∀ doing ∈ doings, held doing.terminal.core → held doing.result.2.core)
    (holds : held before.core) : held result.2.core :=
  through.foldl (fun (_ : Unit) core => held core) (fun _ _ => ())
    (fun doing member _ => kept doing member) () holds

theorem core_of_nil (through : Through before [] result) : result.2.core = before.core := by
  cases through with
  | idle same passing => exact same

/-- Behind the first deed come the others, however it all ends. -/
theorem tail {doing : Doing} (through : Through before (doing :: rest) result) :
    doing.terminal.core = before.core ∧ ∃ ended, Through doing.result.2 rest (ended, result.2) := by
  cases through with
  | done found ran later =>
      rw [ran]
      exact ⟨found, result.1, later⟩
  | reported found ran fault later =>
      rw [ran]
      exact ⟨found, result.1, later⟩
  | escaped found ran same =>
      rw [ran]
      refine ⟨found, .ok (), .idle same ?_⟩
      intro escape escaped
      cases escaped

/-- An escape that ends the dialog comes from a deed. -/
theorem exists_escaping {escape : Escape} {left : Terminal}
    (through : Through before doings (.error escape, left)) (final : escape.isPassing = false) :
    ∃ doing ∈ doings, ∃ middle, doing.result = (.error escape, middle) := by
  generalize ended : ((.error escape, left) : Except Escape Unit × Terminal) = first at through
  induction through with
  | idle same passing =>
      subst ended
      rw [passing escape rfl] at final
      cases final
  | done found ran _ ih =>
      obtain ⟨doing, member, escapes⟩ := ih ended
      exact ⟨doing, List.mem_cons_of_mem _ member, escapes⟩
  | reported found ran fault _ ih =>
      obtain ⟨doing, member, escapes⟩ := ih ended
      exact ⟨doing, List.mem_cons_of_mem _ member, escapes⟩
  | escaped found ran same =>
      cases ended
      exact ⟨_, List.mem_cons_self, _, ran⟩

/-- Every deed finds the core that those before it have left. -/
theorem split {earlier later : List Doing} {doing : Doing}
    (through : Through before (earlier ++ doing :: later) result) :
    ∃ found, Through before earlier found ∧ doing.terminal.core = found.2.core := by
  induction earlier generalizing before with
  | nil =>
      have idle : Through before [] (.ok (), before) := .of_quiet (Quiet.pure ())
      cases through with
      | done found => exact ⟨_, idle, found⟩
      | reported found => exact ⟨_, idle, found⟩
      | escaped found => exact ⟨_, idle, found⟩
  | cons first rest ih =>
      rw [List.cons_append] at through
      generalize others : rest ++ doing :: later = tail at through
      cases through with
      | done found ran through =>
          subst others
          obtain ⟨middle, reached, same⟩ := ih through
          exact ⟨middle, .done found ran reached, same⟩
      | reported found ran fault through =>
          subst others
          obtain ⟨middle, reached, same⟩ := ih through
          exact ⟨middle, .reported found ran fault reached, same⟩
      | escaped => simp at others

end Through

/-! ### The deeds of commands -/

namespace Terminal

def doingsTimes (text : String) : Nat → Terminal → List Doing
  | 0, _ => []
  | left + 1, terminal =>
    ⟨terminal, .feed text⟩ ::
      match (Dialog.feed text).run.run terminal with
      | (.ok (), after) => doingsTimes text left after
      | (.error _, _) => []

theorem deed_of_mem_doingsTimes {text : String} {times : Nat} {terminal : Terminal} {doing : Doing}
    (member : doing ∈ terminal.doingsTimes text times) : doing.deed = .feed text := by
  induction times generalizing terminal with
  | zero => cases member
  | succ left ih =>
      rw [doingsTimes] at member
      cases member with
      | head => rfl
      | tail _ later =>
          split at later
          · exact ih later
          · cases later

def said (text : String) (terminal : Terminal) : Terminal :=
  ((Dialog.say text).run.run terminal).2

def timed (terminal : Terminal) : Terminal :=
  (Dialog.time.run.run terminal).2

def doingsOfFile (terminal : Terminal) (name : String) : List Doing :=
  match terminal.files.readText name with
  | .ok code => [⟨terminal, .feed code⟩]
  | .error _ => []

def benchmarkTimes : List String → Nat
  | [] => 1000
  | numeral :: _ =>
    match Number.readInteger numeral with
    | .ok times => times.toNat
    | .error _ => 0

def doings (terminal : Terminal) : Command → List String → List Doing
  | .exec, first :: others => [⟨terminal, .feed (Text.unwords (first :: others))⟩]
  | .eval, first :: others =>
    [⟨terminal, .feed ("printline(" ++ Text.unwords (first :: others) ++ ")")⟩]
  | .load, name :: _ => terminal.doingsOfFile name
  | .importCode, name :: _ => terminal.doingsOfFile name
  | .timeExec, first :: others => [⟨terminal.timed, .feed (Text.unwords (first :: others))⟩]
  | .runTests, _ => [⟨terminal.said "Running tests...", .feed "printline(\"Test passed\")"⟩]
  | .benchmark, arguments =>
    doingsTimes "local x = 1 + 1" (benchmarkTimes arguments) terminal.timed
  | .reset, _ => [⟨terminal, .reset⟩]
  | .clearHistory, _ => [⟨terminal, .forget⟩]
  | .quit, _ => [⟨terminal.said "Goodbye!", .quit⟩]
  | _, _ => []

end Terminal

def Command.isFeeding : Command → Bool
  | .exec | .eval | .load | .importCode | .timeExec | .runTests | .benchmark => true
  | _ => false

def Deed.isOf (command : Command) : Deed → Bool
  | .feed _ => command.isFeeding
  | .reset => command = .reset
  | .forget => command = .clearHistory
  | .quit => command = .quit
  | .record _ => false

theorem Deed.isOf_of_mem_doings {command : Command} {arguments : List String} {terminal : Terminal}
    {doing : Doing} (member : doing ∈ terminal.doings command arguments) :
    doing.deed.isOf command = true := by
  have single : ∀ {found deed}, doing ∈ [(⟨found, deed⟩ : Doing)] → deed.isOf command = true →
      doing.deed.isOf command = true := by
    intro found deed member has
    rw [List.mem_singleton.mp member]
    exact has
  have file : ∀ {name}, doing ∈ terminal.doingsOfFile name → command.isFeeding = true →
      doing.deed.isOf command = true := by
    intro name member feeding
    unfold Terminal.doingsOfFile at member
    split at member
    · exact single member feeding
    · cases member
  unfold Terminal.doings at member
  split at member
  · exact single member rfl
  · exact single member rfl
  · exact file member rfl
  · exact file member rfl
  · exact single member rfl
  · exact single member rfl
  · rw [Terminal.deed_of_mem_doingsTimes member]
    rfl
  · exact single member rfl
  · exact single member rfl
  · exact single member rfl
  · cases member

namespace Dialog

variable {terminal : Terminal}

theorem through_feedTimes (text : String) (times : Nat) (terminal : Terminal) :
    Through terminal (terminal.doingsTimes text times) ((feedTimes text times).run.run terminal) := by
  induction times generalizing terminal with
  | zero => exact .of_quiet (Quiet.pure ())
  | succ left ih =>
      have result : Doing.result ⟨terminal, .feed text⟩ = (feed text).run.run terminal := rfl
      rw [feedTimes, Terminal.doingsTimes]
      cases ran : (feed text).run.run terminal with
      | mk ended middle =>
          rw [ran] at result
          cases ended with
          | ok _ =>
              rw [Run.run_bind_ok ran]
              exact .done rfl result (ih middle)
          | error escape =>
              rw [Run.run_bind_error ran]
              exact .escaped rfl result rfl

theorem through_load (name : String) (others : List String) (terminal : Terminal) :
    Through terminal (terminal.doingsOfFile name) ((load (name :: others)).run.run terminal) := by
  rw [load, Run.run_get_bind, Terminal.doingsOfFile]
  cases terminal.files.readText name with
  | error fault =>
      refine .of_quiet ?_
      split
      · exact quiet_say _
      · exact quiet_say _
      · rename_i same
        cases same
  | ok code =>
      apply Through.reportingEscape
      exact (Through.of_deed (.feed code) terminal).bind_quiet fun _ => quiet_say _

theorem through_benchmark (arguments : List String) (terminal : Terminal) :
    Through terminal (terminal.doings .benchmark arguments)
      ((benchmark arguments).run.run terminal) := by
  have timed : ∀ times : Int, Through terminal
      (Terminal.doingsTimes "local x = 1 + 1" times.toNat terminal.timed)
      ((do
        let start ← time
        feedTimes "local x = 1 + 1" times.toNat
        let stop ← time
        say ("Benchmark: " ++ toString times ++ " operations in " ++ elapsedText start stop
          ++ " seconds")).run.run terminal) := by
    intro times
    refine Through.of_quiet_bind quiet_time rfl ?_
    refine (through_feedTimes _ _ _).bind_quiet ?_
    exact fun _ => quiet_time.bind fun _ _ _ => quiet_say _
  cases arguments with
  | nil => exact timed 1000
  | cons numeral others =>
      rw [benchmark, Terminal.doings, Terminal.benchmarkTimes]
      cases Number.readInteger numeral with
      | ok times => exact timed times
      | error fault => exact .of_quiet (Quiet.throw rfl)

theorem perform_through (command : Command) (arguments : List String) (terminal : Terminal) :
    Through terminal (terminal.doings command arguments)
      ((perform command arguments).run.run terminal) := by
  cases command with
  | exec =>
      cases arguments with
      | nil => exact .of_quiet (quiet_say _)
      | cons first others => exact .of_deed (.feed _) terminal
  | eval =>
      cases arguments with
      | nil => exact .of_quiet (quiet_say _)
      | cons first others => exact .of_deed (.feed _) terminal
  | load =>
      cases arguments with
      | nil => exact .of_quiet (quiet_say _)
      | cons name others => exact through_load name others terminal
  | importCode =>
      cases arguments with
      | nil => exact .of_quiet (quiet_say _)
      | cons name others => exact through_load name others terminal
  | timeExec =>
      cases arguments with
      | nil => exact .of_quiet (quiet_say _)
      | cons first others =>
          refine Through.of_quiet_bind quiet_time rfl ?_
          refine (Through.of_deed (.feed _) _).bind_quiet ?_
          exact fun _ => quiet_time.bind fun _ _ _ => quiet_say _
  | runTests =>
      refine Through.of_quiet_bind (quiet_say _) rfl ?_
      exact (Through.of_deed (.feed _) _).bind_quiet fun _ => quiet_say _
  | benchmark => exact through_benchmark arguments terminal
  | reset => exact (Through.of_deed .reset terminal).bind_quiet fun _ => quiet_say _
  | clearHistory => exact (Through.of_deed .forget terminal).bind_quiet fun _ => quiet_say _
  | quit => exact Through.of_quiet_bind (quiet_say _) rfl (.of_deed .quit _)
  | help => exact .of_quiet (quiet_say _)
  | version => exact .of_quiet (quiet_say _)
  | history => exact .of_quiet quiet_showHistory
  | goto => exact .of_quiet (quiet_goto arguments)
  | install => exact .of_quiet (quiet_install arguments)
  | uninstall => exact .of_quiet (quiet_uninstall arguments)
  | update => exact .of_quiet (quiet_update arguments)
  | installList => exact .of_quiet quiet_listPackages
  | setup => exact .of_quiet (quiet_setup arguments)
  | save => exact .of_quiet (quiet_save arguments)
  | searchHistory => exact .of_quiet (quiet_searchHistory arguments)
  | tutorial => exact .of_quiet (quiet_say _)
  | examples => exact .of_quiet (quiet_say _)
  | info =>
      apply Through.of_quiet
      apply Quiet.read
      apply (quiet_say _).bind
      intro _ _ _
      apply (quiet_say _).bind
      intro _ _ _
      apply (quiet_say _).bind
      intro _ _ _
      exact (quiet_say _).bind fun _ _ _ => quiet_say _
  | stats => exact .of_quiet (Quiet.read (quiet_say _))
  | exportVars =>
      cases arguments with
      | nil => exact .of_quiet (quiet_say _)
      | cons name others => exact .of_quiet (quiet_say _)
  | config =>
      rcases arguments with _ | ⟨key, _ | ⟨first, others⟩⟩
      · exact .of_quiet (quiet_say _)
      · exact .of_quiet (quiet_say _)
      · exact .of_quiet (quiet_say _)

end Dialog

end IndentScript
