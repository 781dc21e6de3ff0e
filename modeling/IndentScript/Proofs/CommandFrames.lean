import IndentScript.Proofs.Frames
import IndentScript.Proofs.PendingLines

/-!
What commands leave of a user's work: the global variables and the open entry.

Most commands leave it alone. Two feed a text of their own, which is run like one of the user's: it
closes an entry that is open, and the text of a benchmark sets a variable.
-/

namespace IndentScript

theorem Entries.set_set {α : Type} (name : String) (first second : α) (entries : Entries α) :
    set name second (set name first entries) = set name second entries := by
  induction entries with
  | nil => simp [set]
  | cons head rest ih =>
      obtain ⟨key, held⟩ := head
      by_cases same : key = name <;> simp [set, same, ih]

/-! ### The texts that commands feed -/

theorem compile_testText :
    compile "printline(\"Test passed\")" = .ok ⟨[.print [.literal (.text "Test passed")]]⟩ := by
  refine compile_eq_ok_iff.mpr ⟨[⟨.keyword .printlineWord, .text "printline", 1⟩,
    ⟨.symbol .openParen, .text "(", 1⟩, ⟨.string, .text "Test passed", 1⟩,
    ⟨.symbol .closeParen, .text ")", 1⟩, Token.final 1], ?_, rfl⟩
  exact tokenize_eq_ok_iff.mpr ⟨by decide +kernel, by decide +kernel⟩

theorem compile_benchmarkText :
    compile "local x = 1 + 1" =
      .ok ⟨[.assign "x" (.binary (.literal (.int 1)) .plus (.literal (.int 1)))]⟩ := by
  refine compile_eq_ok_iff.mpr ⟨[⟨.keyword .localWord, .text "local", 1⟩,
    ⟨.identifier, .text "x", 1⟩, ⟨.symbol .assign, .text "=", 1⟩, ⟨.number, .number 1, 1⟩,
    ⟨.symbol .plus, .text "+", 1⟩, ⟨.number, .number 1, 1⟩, Token.final 1], ?_, rfl⟩
  exact tokenize_eq_ok_iff.mpr ⟨by decide +kernel, by decide +kernel⟩

namespace Machine

/-- Printing binds no name, however it ends. -/
theorem scopes_runProgram_print [Limits] (arguments : List Expr) (machine : Machine) :
    (machine.runProgram ⟨[.print arguments]⟩).2.scopes = machine.scopes := by
  have keeps : Run.Unchanging (Run.runBlock (Run.execute Run.roundLimit Run.depthLimit)
      [.print arguments]) := by
    intro scopes
    apply Run.Keeps.forM
    intro statement member
    rw [List.mem_singleton.mp member]
    exact Run.unchanging_execute_print _ _ _ scopes
  rw [runProgram_snd]
  exact keeps.scopes_after machine

theorem scopes_runSource_testText (machine : Machine) :
    (machine.runSource "printline(\"Test passed\")").2.scopes = machine.scopes := by
  rw [runSource, compile_testText]
  exact scopes_runProgram_print _ machine

theorem runSource_benchmarkText (machine : Machine) :
    machine.runSource "local x = 1 + 1" =
      (none, { machine with scopes := Run.assigned "x" (.int 2) machine.scopes }) := by
  rw [runSource, compile_benchmarkText]
  rfl

end Machine

/-! ### Reachable terminals -/

theorem Run.Guarded.eq_globals {scopes : Scopes} (guarded : Guarded 0 scopes) :
    scopes = [scopes.getLast?.getD []] := by
  cases guarded with
  | globals values bindings => rfl

section

variable [Limits]

namespace Terminal

theorem guarded_deed (deed : Deed) {terminal : Terminal}
    (guarded : Run.Guarded 0 terminal.core.scopes) :
    Run.Guarded 0 (deed.act.run.run terminal).2.core.scopes := by
  cases deed with
  | feed text =>
      rw [Deed.act]
      rcases Dialog.run_feed_cases text terminal with ⟨_, ran⟩ | ⟨front, _, ran⟩ | ⟨closes, _⟩
      · rw [ran]
        exact guarded
      · rw [ran]
        exact guarded
      · rw [Dialog.core_closing closes]
        exact Machine.guarded_runSource guarded _
  | reset => exact Machine.guarded_new terminal.machine.console
  | forget => exact guarded
  | quit => exact guarded
  | record line => exact guarded

theorem Reachable.guarded {terminal : Terminal} (reachable : terminal.Reachable) :
    Run.Guarded 0 terminal.core.scopes := by
  obtain ⟨console, files, session, rfl⟩ := reachable
  have start : Run.Guarded 0 (new console files).core.scopes := Machine.guarded_new console
  generalize new console files = terminal at start
  induction session generalizing terminal with
  | nil => exact start
  | cons step rest ih =>
      apply ih
      exact (event_through step.2 (terminal.inWorld step.1)).keep
        (fun core => Run.Guarded 0 core.scopes) (fun doing _ => guarded_deed doing.deed) start

/-- A terminal that was told things has no scope but the global one, and it keeps no text when no
entry is open. -/
theorem Reachable.idle {terminal : Terminal} (reachable : terminal.Reachable) :
    terminal.machine.scopes = [terminal.machine.globals] ∧
      (terminal.continued = false → terminal.pending = "") := by
  have guarded := reachable.guarded
  obtain ⟨console, files, session, rfl⟩ := reachable
  have keeps := keeps_afterSession (Core.keeps_nil rfl rfl : (new console files).core.Keeps []) session
  generalize (new console files).afterSession session = terminal at guarded keeps
  constructor
  · exact guarded.eq_globals
  · intro closed
    have none : keptLines (new console files) [] session = [] := by
      by_contra some
      have continued : terminal.continued = true := keeps.continued.mpr some
      rw [closed] at continued
      cases continued
    have pending := keeps.pending
    rw [none] at pending
    exact pending

/-! ### Frames of commands -/

def Core.work (core : Core) : Entries Value × String × Bool :=
  (core.scopes.getLast?.getD [], core.pending, core.continued)

def work (terminal : Terminal) : Entries Value × String × Bool :=
  terminal.core.work

omit [Limits] in
theorem work_eq (terminal : Terminal) :
    terminal.work = (terminal.machine.globals, terminal.pending, terminal.continued) :=
  rfl

end Terminal

def Command.isSpectator (command : Command) : Bool :=
  !command.isFeeding && command ≠ .reset && command ≠ .quit

omit [Limits] in
theorem Command.isSpectator.forgets {command : Command} (spectator : command.isSpectator = true)
    {deed : Deed} (has : deed.isOf command = true) : deed = .forget := by
  unfold Deed.isOf at has
  cases deed with
  | forget => rfl
  | _ => simp_all [Command.isSpectator]

namespace Dialog

theorem work_of_isSpectator {line : String}
    (spectator : ∀ known, Command.ofLine? line = some known → known.1.isSpectator = true)
    (terminal : Terminal) : ((command line).run.run terminal).2.work = terminal.work := by
  have through := (Told.command line).through terminal
  have forgets : ∀ doing ∈ terminal.doingsOf (.command line), doing.deed = .forget := by
    intro doing member
    obtain ⟨known, found, has⟩ := Deed.isOf_of_mem_doingsOf member
    exact Command.isSpectator.forgets (spectator known found) has
  refine through.keep (fun core => core.work = terminal.work) ?_ rfl
  intro doing member same
  rw [Doing.result, forgets doing member]
  exact same

theorem work_closing {text : String} (closes : Closes text) (terminal : Terminal) :
    ((feed text).run.run terminal).2.work =
      ((terminal.machine.runSource (terminal.pending ++ text)).2.globals, "", false) := by
  rw [Terminal.work, core_closing closes]
  rfl

/-- No entry is open behind a text that closes it. -/
theorem work_eq_of_closes {text : String} (closes : Closes text) (terminal : Terminal) :
    let fed := (feed text).run.run terminal
    fed.2.work = (fed.2.machine.globals, "", false) := by
  intro fed
  have entry : fed.2.work.2 = ("", false) := congrArg Prod.snd (work_closing closes terminal)
  rw [← entry]
  rfl

end Dialog

end

namespace Dialog

theorem closes_testText : Closes "printline(\"Test passed\")" := by
  decide

theorem closes_benchmarkText : Closes "local x = 1 + 1" := by
  decide

theorem work_feed_testText {terminal : Terminal} (idle : terminal.pending = "") :
    ((feed "printline(\"Test passed\")").run.run terminal).2.work =
      (terminal.machine.globals, "", false) := by
  rw [work_closing closes_testText, idle, String.empty_append, Machine.globals,
    Machine.scopes_runSource_testText]
  rfl

theorem work_feed_benchmarkText {terminal : Terminal} (idle : terminal.pending = "")
    (guarded : Run.Guarded 0 terminal.machine.scopes) :
    ((feed "local x = 1 + 1").run.run terminal).2.work =
      (Entries.set "x" (.int 2) terminal.machine.globals, "", false) := by
  rw [work_closing closes_benchmarkText, idle, String.empty_append,
    Machine.runSource_benchmarkText, Machine.globals, Machine.globals]
  dsimp only
  rw [guarded.eq_globals]
  rfl

end Dialog

namespace Terminal

/-- Where no entry is open the texts of a benchmark set a variable, all to the same value. -/
theorem work_of_doingsTimes {before start : Terminal} {times : Nat} {globals : Entries Value}
    {result : Except Escape Unit × Terminal}
    (through : Through before (start.doingsTimes "local x = 1 + 1" times) result)
    (guarded : Run.Guarded 0 before.core.scopes) (idle : before.work = (globals, "", false)) :
    result.2.work = (if times = 0 then globals else Entries.set "x" (.int 2) globals, "", false) := by
  have step : ∀ doing : Doing, doing.deed = .feed "local x = 1 + 1" →
      Run.Guarded 0 doing.terminal.core.scopes → ∀ found,
      doing.terminal.core.work = (found, "", false) →
      Run.Guarded 0 doing.result.2.core.scopes ∧
        doing.result.2.core.work = (Entries.set "x" (.int 2) found, "", false) := by
    intro doing feeds guarded found same
    have pending : doing.terminal.pending = "" := congrArg (·.2.1) same
    have bound : doing.terminal.machine.globals = found := congrArg (·.1) same
    rw [Doing.result, feeds]
    refine ⟨guarded_deed _ guarded, ?_⟩
    rw [← bound]
    exact Dialog.work_feed_benchmarkText pending guarded
  cases times with
  | zero =>
      rw [if_pos rfl, work, through.core_of_nil]
      exact idle
  | succ left =>
      rw [doingsTimes] at through
      obtain ⟨found, ended, later⟩ := through.tail
      rw [if_neg (Nat.succ_ne_zero left)]
      refine (later.keep (fun core => Run.Guarded 0 core.scopes ∧
        core.work = (Entries.set "x" (.int 2) globals, "", false)) ?_ ?_).2
      · intro doing member held
        have feeds : doing.deed = .feed "local x = 1 + 1" := by
          split at member
          · exact deed_of_mem_doingsTimes member
          · cases member
        have next := step doing feeds held.1 _ held.2
        rw [Entries.set_set] at next
        exact next
      · refine step ⟨start, .feed "local x = 1 + 1"⟩ rfl ?_ globals ?_
        · rw [found]
          exact guarded
        · rw [found]
          exact idle

end Terminal

namespace Dialog

theorem work_benchmark {arguments : List String} (positive : 0 < Terminal.benchmarkTimes arguments)
    {terminal : Terminal} (guarded : Run.Guarded 0 terminal.core.scopes) :
    let fed := (feed "local x = 1 + 1").run.run terminal.timed
    ((perform .benchmark arguments).run.run terminal).2.work =
      (if fed.1.toBool = true ∧ 1 < Terminal.benchmarkTimes arguments then
        Entries.set "x" (.int 2) fed.2.machine.globals
      else fed.2.machine.globals, "", false) := by
  intro fed
  have through := perform_through .benchmark arguments terminal
  have fedWork : fed.2.work = (fed.2.machine.globals, "", false) :=
    work_eq_of_closes closes_benchmarkText terminal.timed
  have timedGuarded : Run.Guarded 0 terminal.timed.core.scopes := guarded
  have fedGuarded : Run.Guarded 0 fed.2.core.scopes :=
    Terminal.guarded_deed (.feed "local x = 1 + 1") timedGuarded
  rw [Terminal.doings] at through
  obtain ⟨left, times⟩ : ∃ left, Terminal.benchmarkTimes arguments = left + 1 :=
    ⟨_, (Nat.succ_pred_eq_of_pos positive).symm⟩
  -- Only the first round can find an open entry, so it is taken apart from the others.
  rw [times, Terminal.doingsTimes] at through
  obtain ⟨_, ended, later⟩ := through.tail
  change Through fed.2 _ _ at later
  cases ran : fed with
  | mk fedEnd after =>
      have same : (feed "local x = 1 + 1").run.run terminal.timed = (fedEnd, after) := ran
      rw [ran] at fedWork fedGuarded later
      simp only [same] at later
      cases fedEnd with
      | ok _ =>
          rw [Terminal.work_of_doingsTimes later fedGuarded fedWork, times]
          by_cases once : left = 0
          · simp [once]
          · have again : 1 < left + 1 := by omega
            rw [if_neg once, if_pos ⟨rfl, again⟩]
      | error escape =>
          rw [Terminal.work, later.core_of_nil]
          exact fedWork

end Dialog

namespace Terminal

/-- Whatever a terminal was told before and whatever is around it, a command that neither runs a text
nor resets the terminal nor ends the dialog leaves the global variables and the open entry alone, and
so does a line that is no command. The tests and a benchmark feed a text of their own, which closes
an open entry and is run with it. Where none is open, the tests leave everything alone, and a
benchmark that is to be run at all does so but for one variable. -/
theorem work_command {terminal : Terminal} (reachable : terminal.Reachable) (world : World)
    (line : String) :
    let found := terminal.inWorld world
    let left := ((Dialog.command line).run.run found).2
    ((∀ known, Command.ofLine? line = some known → known.1.isSpectator = true) →
      left.work = found.work) ∧
    (∀ arguments, Command.ofLine? line = some (.runTests, arguments) →
      let fed := (Dialog.feed "printline(\"Test passed\")").run.run (found.said "Running tests...")
      left.work = (fed.2.machine.globals, "", false) ∧
      (found.continued = false → left.work = found.work)) ∧
    ∀ arguments, Command.ofLine? line = some (.benchmark, arguments) →
      let times := benchmarkTimes arguments
      let fed := (Dialog.feed "local x = 1 + 1").run.run found.timed
      (times = 0 → left.work = found.work) ∧
      (0 < times → left.work =
        (if fed.1.toBool = true ∧ 1 < times then Entries.set "x" (.int 2) fed.2.machine.globals
        else fed.2.machine.globals, "", false)) ∧
      (0 < times → found.continued = false → left.work =
        (Entries.set "x" (.int 2) found.machine.globals, found.pending, found.continued)) := by
  intro found left
  have guarded : Run.Guarded 0 found.core.scopes := reachable.guarded
  have idle : found.continued = false → found.pending = "" := reachable.idle.2
  refine ⟨fun spectator => Dialog.work_of_isSpectator spectator found, ?_, ?_⟩
  · intro arguments isTests fed
    have through := Dialog.perform_through .runTests arguments found
    rw [← Dialog.command_of_ofLine? isTests, doings] at through
    obtain ⟨_, ended, later⟩ := through.tail
    have closed : left.work = fed.2.work := congrArg Core.work later.core_of_nil
    refine ⟨?_, ?_⟩
    · rw [closed]
      exact Dialog.work_eq_of_closes Dialog.closes_testText (found.said "Running tests...")
    · intro closedEntry
      have none : (found.said "Running tests...").pending = "" := idle closedEntry
      rw [closed, Dialog.work_feed_testText none, work_eq, idle closedEntry, closedEntry]
      rfl
  · intro arguments isBenchmark times fed
    have performed : left = ((Dialog.perform .benchmark arguments).run.run found).2 := by
      rw [← Dialog.command_of_ofLine? isBenchmark]
    refine ⟨?_, ?_, ?_⟩
    · intro never
      have through := Dialog.perform_through .benchmark arguments found
      rw [doings, show benchmarkTimes arguments = 0 from never] at through
      rw [performed, work, through.core_of_nil]
      rfl
    · intro positive
      rw [performed]
      exact Dialog.work_benchmark positive guarded
    · intro positive closedEntry
      have none := idle closedEntry
      have start : found.work = (found.machine.globals, "", false) := by
        rw [← none, ← closedEntry]
        rfl
      have through := Dialog.perform_through .benchmark arguments found
      rw [performed, work_of_doingsTimes through guarded start, if_neg (Nat.ne_of_gt positive), none,
        closedEntry]

/-- A text was taken when a command line in capitals asks for the version. -/
theorem work_command_version :
    let terminal := bare.afterSession [(⟨{}, bare.files, bare.programEnd⟩, .told (.text "local x = 7"))]
    Reachable terminal ∧ ((Dialog.command " VERSION 2").run.run terminal).2.work = terminal.work := by
  intro terminal
  have reachable : Reachable terminal := ⟨_, _, _, rfl⟩
  have same : terminal = terminal.inWorld
    ⟨terminal.machine.console, terminal.files, terminal.programEnd⟩ := rfl
  refine ⟨reachable, ?_⟩
  rw [same]
  refine (work_command reachable _ " VERSION 2").1 ?_
  intro known isKnown
  have version : Command.ofLine? " VERSION 2" = some (.version, ["2"]) := by decide +kernel
  rw [version] at isKnown
  cases isKnown
  rfl

/-- A benchmark is no text of the user, but it sets a variable that may be one. -/
theorem benchmark_rebinds_variable :
    let terminal := bare.afterSession [(⟨{}, bare.files, bare.programEnd⟩, .told (.text "local x = 7"))]
    let left := ((Dialog.command "benchmark 1").run.run terminal).2
    Reachable terminal ∧ Command.ofLine? "benchmark 1" = some (.benchmark, ["1"]) ∧
      (Entries.get? "x" terminal.machine.globals).bind Value.integer? = some 7 ∧
      (Entries.get? "x" left.machine.globals).bind Value.integer? = some 2 := by
  refine ⟨⟨_, _, _, rfl⟩, ?_, ?_, ?_⟩
  · decide +kernel
  · decide +kernel
  · decide +kernel

end Terminal

end IndentScript
