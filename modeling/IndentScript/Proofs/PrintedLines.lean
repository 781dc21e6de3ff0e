import IndentScript.Proofs.RunRules
import IndentScript.Proofs.SourceSessions
import IndentScript.Proofs.ValueTexts

/-!
Whether the output of a program consists of whole lines. Values are written one after another, and a
value may have no text; then what stands before it on its line is written already, and the line has no
end. This is the only way in which output stops within a line. It takes a printed value that has a text,
with one behind it that has none.
-/

namespace IndentScript

/-! ### Lines -/

namespace Content

/-- The content is empty or ends with a line end. -/
def IsLines (content : Content) : Prop :=
  content = .plain "" ∨ content.points.getLast? = some (.character '\n')

instance : DecidablePred IsLines :=
  fun _ => inferInstanceAs (Decidable (_ ∨ _))

theorem empty_append (content : Content) : .plain "" ++ content = content := by
  apply eq_of_points_eq
  rw [points_append]
  rfl

theorem getLast?_append (left : Content) {right : Content} {point : CodePoint}
    (last : right.points.getLast? = some point) : (left ++ right).points.getLast? = some point := by
  rw [points_append, List.getLast?_append, last]
  rfl

theorem isLines_ended (line : Content) : IsLines (line ++ .plain "\n") :=
  .inr (getLast?_append line rfl)

theorem IsLines.append {lines others : Content} (areLines : lines.IsLines)
    (othersAre : others.IsLines) : (lines ++ others).IsLines := by
  rcases othersAre with rfl | last
  · rwa [append_empty]
  · exact .inr (getLast?_append lines last)

theorem not_isLines_of_blank {content : Content}
    (last : content.points.getLast? = some (.character ' ')) : ¬content.IsLines := by
  rintro (rfl | ended)
  · cases last
  · rw [last] at ended
    simp at ended

end Content

section

variable [Limits]

namespace Shows

theorem last_blank {values : List Value} {line : Content} (shows : Shows values line)
    (given : values ≠ []) : line.points.getLast? = some (.character ' ') := by
  induction shows with
  | nil => exact absurd rfl given
  | @cons value others text line _ shows ih =>
      cases shows with
      | nil =>
          rw [Content.append_empty]
          exact Content.getLast?_append text rfl
      | cons shown rest => exact Content.getLast?_append _ (ih (List.cons_ne_nil _ _))

theorem legible {values : List Value} {line : Content} (shows : Shows values line) :
    ∀ value ∈ values, value.Legible := by
  induction shows with
  | nil => exact List.forall_mem_nil _
  | cons shown _ ih => exact List.forall_mem_cons.mpr ⟨Value.legible_of_shown shown, ih⟩

end Shows

/-- At the moment a line is cut short behind the part: the value that comes next has no text. -/
inductive CutShort (rounds : Nat) (moment : Moment) (part : Content) : Fault → Prop where
  | before {front others : List Value} {value : Value} {middle : Machine} {cause : Fault} :
    Printing rounds moment (front ++ value :: others) middle → front ≠ [] → Shows front part →
    value.shown = .error cause → CutShort rounds moment part cause

theorem Value.not_legible_of_error {value : Value} {cause : Fault} (failed : value.shown = .error cause) :
    ¬value.Legible := by
  intro legible
  obtain ⟨content, shown⟩ := Value.exists_shown_iff.mpr legible
  rw [shown] at failed
  cases failed

/-- A line is cut short where a legible value is printed with an illegible one behind it. -/
theorem exists_cutShort_iff {rounds : Nat} {moment : Moment} :
    (∃ part cause, CutShort rounds moment part cause) ↔
      ∃ value others middle, Printing rounds moment (value :: others) middle ∧ value.Legible ∧
        ∃ other ∈ others, ¬other.Legible := by
  constructor
  · rintro ⟨part, cause, cut⟩
    cases cut with
    | @before front others value middle _ printing given shows failed =>
        obtain ⟨first, more, rfl⟩ := List.exists_cons_of_ne_nil given
        exact ⟨first, more ++ value :: others, middle, printing,
          shows.legible first List.mem_cons_self, value, by simp, Value.not_legible_of_error failed⟩
  · rintro ⟨value, others, middle, printing, legible, other, member, illegible⟩
    rcases shows_or_error (value :: others) with
      ⟨line, shows⟩ | ⟨front, culprit, rest, part, cause, same, shows, failed⟩
    · exact absurd (shows.legible other (List.mem_cons_of_mem value member)) illegible
    · -- the first value has a text, so it is not the culprit
      have given : front ≠ [] := by
        rintro rfl
        cases same
        exact Value.not_legible_of_error failed legible
      rw [same] at printing
      exact ⟨part, cause, .before printing given shows failed⟩

end

namespace Run

/-- The run writes whole lines, or it is stopped at a moment that cuts a line short. -/
def writesLines [Limits] (rounds : Nat) : Property := fun _ seen run machine =>
  (∃ lines, (run.after machine).console.output = machine.console.output ++ lines ∧ lines.IsLines) ∨
  ∃ moment lines part cause, seen moment ∧ CutShort rounds moment part cause ∧ lines.IsLines ∧
    run.outcome machine = .error (.fault cause) ∧
    (run.after machine).console.output = machine.console.output ++ (lines ++ part)

section

variable [Limits] {rounds : Nat} {seen : Moment → Prop} {machine : Machine}

theorem writesLines_of_same {α : Type} {run : Run α}
    (same : (run.after machine).console.output = machine.console.output) :
    writesLines rounds α seen run machine := by
  refine .inl ⟨.plain "", ?_, .inl rfl⟩
  rw [same, Content.append_empty]

theorem writesLines_readLine : writesLines rounds String seen readLine machine := by
  apply writesLines_of_same
  rw [after]
  rcases input : machine.console.input with _ | ⟨_ | text, rest⟩
  · rw [run_readLine_nil input]
  · rw [run_readLine_none input]
  · rw [run_readLine_some input]

theorem writesLines_printLine {moment : Moment} {values : List Value}
    (printing : Printing rounds moment values machine) (isSeen : seen moment) :
    writesLines rounds Unit seen (printLine values) machine := by
  rcases shows_or_error values with ⟨line, shows⟩ | ⟨front, value, others, line, cause, rfl, shows, failed⟩
  · refine .inl ⟨line ++ .plain "\n", ?_, Content.isLines_ended line⟩
    rw [after, run_printLine_of_shows shows]
    rfl
  · have ran := run_printLine_of_error shows failed others machine
    by_cases first : front = []
    · subst first
      cases shows
      apply writesLines_of_same
      rw [after, ran, Machine.written_empty]
    · refine .inr ⟨moment, .plain "", line, cause, isSeen, .before printing first shows failed,
        .inl rfl, ?_, ?_⟩
      · rw [outcome, ran]
      · rw [after, ran, Content.empty_append]
        rfl

theorem writesLines_bind {α β : Type} {first : Run α} {next : α → Run β}
    (writes : writesLines rounds α seen first machine)
    (writesNext : ∀ found middle, first.run.run machine = (.ok found, middle) →
      writesLines rounds β seen (next found) middle) :
    writesLines rounds β seen (first >>= next) machine := by
  unfold writesLines after outcome at writes ⊢
  cases ran : first.run.run machine with
  | mk ended middle =>
      cases ended with
      | error signal =>
          rw [run_bind_error ran]
          rw [ran] at writes
          rcases writes with whole | ⟨moment, lines, part, cause, isSeen, cut, areLines, stopped, same⟩
          · exact .inl whole
          · cases stopped
            exact .inr ⟨moment, lines, part, cause, isSeen, cut, areLines, rfl, same⟩
      | ok found =>
          rw [ran] at writes
          have continues := writesNext found middle ran
          unfold writesLines after outcome at continues
          rw [run_bind_ok ran]
          -- what is cut short does not go on
          obtain ⟨lines, same, areLines⟩ : ∃ lines, middle.console.output =
              machine.console.output ++ lines ∧ lines.IsLines := by
            rcases writes with whole | ⟨_, _, _, _, _, _, _, stopped, _⟩
            · exact whole
            · cases stopped
          rcases continues with
            ⟨others, left, areOthers⟩ | ⟨moment, others, part, cause, isSeen, cut, areOthers, stopped, left⟩
          · refine .inl ⟨lines ++ others, ?_, areLines.append areOthers⟩
            rw [left, same, Content.append_assoc]
          · refine .inr ⟨moment, lines ++ others, part, cause, isSeen, cut,
              areLines.append areOthers, stopped, ?_⟩
            rw [left, same]
            simp only [Content.append_assoc]

end

theorem composes_writesLines [Limits] (rounds : Nat) : (writesLines rounds).Composes rounds where
  more {_ _ _ _ _} follows writes := by
    rcases writes with whole | ⟨moment, lines, part, cause, isSeen, rest⟩
    · exact .inl whole
    · exact .inr ⟨moment, lines, part, cause, follows moment isSeen, rest⟩
  steady steady := writesLines_of_same steady.output
  bind := writesLines_bind
  inScope writes := writes
  round {_ entries body machine} writes := by
    unfold writesLines after
    rw [outcome_round, run_round]
    rcases writes with whole | ⟨moment, lines, part, cause, isSeen, cut, areLines, stopped, same⟩
    · exact .inl whole
    · have passed : (inScope entries body).outcome machine = .error (.fault cause) := stopped
      refine .inr ⟨moment, lines, part, cause, isSeen, cut, areLines, ?_, same⟩
      rw [passed]
      rfl
  returning {_ body machine} writes := by
    unfold writesLines after
    rw [outcome_returning, run_returning]
    rcases writes with whole | ⟨moment, lines, part, cause, isSeen, cut, areLines, stopped, same⟩
    · exact .inl whole
    · refine .inr ⟨moment, lines, part, cause, isSeen, cut, areLines, ?_, same⟩
      rw [stopped]
      rfl
  reading := writesLines_readLine
  printing printing isSeen := writesLines_printLine printing isSeen

/-! ### A fault of a part stops the whole -/

def FailsWith {α : Type} (cause : Fault) (console : Console) (run : Run α) (machine : Machine) : Prop :=
  ∃ left, run.run.run machine = (.error (.fault cause), left) ∧ left.console = console

section

variable {α β : Type} {cause : Fault} {console : Console} {machine middle : Machine}

theorem FailsWith.bind {first : Run α} (fails : FailsWith cause console first machine)
    (next : α → Run β) : FailsWith cause console (first >>= next) machine := by
  obtain ⟨left, ran, same⟩ := fails
  exact ⟨left, run_bind_error ran next, same⟩

theorem FailsWith.after {first : Run α} {next : α → Run β} {found : α}
    (ran : first.run.run machine = (.ok found, middle))
    (fails : FailsWith cause console (next found) middle) :
    FailsWith cause console (first >>= next) machine := by
  obtain ⟨left, ranNext, same⟩ := fails
  exact ⟨left, (run_bind_ok ran next).trans ranNext, same⟩

theorem failsWith_bind_pure {run : Run α} (make : α → β) :
    FailsWith cause console (run >>= fun found => pure (make found)) machine ↔
      FailsWith cause console run machine := by
  constructor
  · rintro ⟨left, ran, same⟩
    cases first : run.run.run machine with
    | mk ended last =>
        cases ended with
        | ok found =>
            rw [run_bind_ok first] at ran
            cases ran
        | error signal =>
            rw [run_bind_error first] at ran
            cases ran
            exact ⟨left, first, same⟩
  · intro fails
    exact fails.bind _

theorem failsWith_discard {run : Run α} :
    FailsWith cause console (discard run) machine ↔ FailsWith cause console run machine :=
  failsWith_bind_pure fun _ => ()

theorem FailsWith.inScope {entries : Entries Value} {body : Run α}
    (fails : FailsWith cause console body (machine.enter entries)) :
    FailsWith cause console (inScope entries body) machine := by
  obtain ⟨left, ran, same⟩ := fails
  refine ⟨{ left with scopes := left.scopes.drop 1 }, ?_, same⟩
  rw [run_inScope]
  exact congrArg (Prod.map id _) ran

theorem FailsWith.round {entries : Entries Value} {body : Run Unit}
    (fails : FailsWith cause console body (machine.enter entries)) :
    FailsWith cause console (round entries body) machine := by
  obtain ⟨left, ran, same⟩ := fails.inScope
  refine ⟨left, ?_, same⟩
  rw [run_round, outcome, Run.after, ran]
  rfl

theorem FailsWith.returning {body : Run Unit} (fails : FailsWith cause console body machine) :
    FailsWith cause console (returning body) machine := by
  obtain ⟨left, ran, same⟩ := fails
  refine ⟨left, ?_, same⟩
  rw [run_returning, outcome, Run.after, ran]
  rfl

theorem FailsWith.fields [Limits] {rounds depth : Nat} {entries : List (String × Expr)}
    (fails : FailsWith cause console ((entries.map Prod.snd).mapM (evaluate rounds depth)) machine) :
    FailsWith cause console (entries.mapM (fieldOf rounds depth)) machine := by
  induction entries generalizing machine with
  | nil =>
      obtain ⟨left, ran, _⟩ := fails
      cases ran
  | cons entry rest ih =>
      obtain ⟨left, ran, same⟩ := fails
      rw [List.mapM_cons]
      rw [List.map_cons, List.mapM_cons] at ran
      cases first : (evaluate rounds depth entry.2).run.run machine with
      | mk ended middle =>
          cases ended with
          | error signal =>
              rw [run_bind_error first] at ran
              cases ran
              exact FailsWith.bind ⟨left, run_fieldOf_error first, same⟩ _
          | ok found =>
              rw [run_bind_ok first] at ran
              have others := (failsWith_bind_pure (found :: ·)).mp ⟨left, ran, same⟩
              exact .after (run_fieldOf_ok first) ((ih others).bind _)

end

end Run

section

variable [Limits]

open Run in
theorem Starts.failsWith {rounds : Nat} {moment next : Moment} {cause : Fault} {console : Console}
    (starts : Starts rounds moment next)
    (fails : FailsWith cause console (next.work.run rounds next.depth) next.machine) :
    FailsWith cause console (moment.work.run rounds moment.depth) moment.machine := by
  cases starts with
  | left => exact failsWith_discard.mpr ((failsWith_discard.mp fails).bind _)
  | right ran =>
      apply failsWith_discard.mpr
      exact .after ran ((failsWith_discard.mp fails).bind _)
  | fields => exact failsWith_discard.mpr ((failsWith_discard.mp fails).fields.bind _)
  | arguments found =>
      apply failsWith_discard.mpr
      exact .after (run_lookup_some found) ((failsWith_discard.mp fails).bind _)
  | called found ran =>
      apply failsWith_discard.mpr
      exact .after (run_lookup_some found) (.after ran fails.returning.inScope)
  | firstExpression =>
      apply failsWith_discard.mpr
      rw [List.mapM_cons]
      exact (failsWith_discard.mp fails).bind _
  | otherExpressions ran =>
      apply failsWith_discard.mpr
      rw [List.mapM_cons]
      exact .after ran ((failsWith_discard.mp fails).bind _)
  | printed | assigned | limit | result | test | loopTest => exact (failsWith_discard.mp fails).bind _
  | branch | loop | evaluated | otherwise => exact fails
  | count ran bounded =>
      refine .after ran ?_
      rw [bounded]
      exact fails
  | firstStatement => exact fails.bind _
  | otherStatements ran => exact .after ran fails
  | taken ran isTrue | passed ran isTrue =>
      refine .after ran ?_
      rw [isTrue]
      exact fails
  | countRound => exact fails.round.bind _
  | countOn ran => exact .after ran fails
  | loopRound ran isTrue =>
      refine .after ran ?_
      rw [isTrue]
      exact fails.round.bind _
  | loopOn ran isTrue ranRound =>
      refine .after ran ?_
      rw [isTrue]
      exact .after ranRound fails

theorem Reaches.failsWith {rounds : Nat} {moment next : Moment} {cause : Fault} {console : Console}
    (reaches : Reaches rounds moment next)
    (fails : Run.FailsWith cause console (next.work.run rounds next.depth) next.machine) :
    Run.FailsWith cause console (moment.work.run rounds moment.depth) moment.machine := by
  induction reaches using Relation.ReflTransGen.head_induction_on with
  | refl => exact fails
  | head starts _ ih => exact starts.failsWith ih

open Run in
theorem CutShort.failsWith {rounds : Nat} {moment : Moment} {part : Content} {cause : Fault}
    (cut : CutShort rounds moment part cause) : ∃ console : Console,
      FailsWith cause console (moment.work.run rounds moment.depth) moment.machine ∧
      console.output.points.getLast? = some (.character ' ') := by
  cases cut with
  | @before front others value middle _ printing given shows failed =>
      have blank : (middle.written part).console.output.points.getLast? = some (.character ' ') :=
        Content.getLast?_append _ (shows.last_blank given)
      have printed : FailsWith cause (middle.written part).console
          (perform .print (front ++ value :: others)) middle :=
        FailsWith.bind ⟨_, run_printLine_of_error shows failed others middle, rfl⟩ _
      refine ⟨_, ?_, blank⟩
      cases printing with
      | statement ran known =>
          exact .after ran (.after (run_lookupGlobal_some known) (failsWith_discard.mpr printed))
      | call found ran =>
          exact failsWith_discard.mpr (.after (run_lookup_some found) (.after ran printed))

/-! ### Programs -/

/-- How a print statement is stopped: before its line, or within it. In its line stand the texts of
the values before the first one that has no text. -/
inductive PrintStopped (rounds : Nat) (arguments : List Expr) (machine : Machine) :
    Nat → Stop → Machine → Prop where
  | tooDeep : PrintStopped rounds arguments machine 0 (.fault .tooDeep) machine
  | arguments {depth : Nat} {stop : Stop} {left : Machine} :
    (arguments.mapM (Run.evaluate rounds depth)).run.run machine = (.error stop, left) →
    PrintStopped rounds arguments machine (depth + 1) stop left
  | value {depth : Nat} {front others : List Value} {value : Value} {middle : Machine}
      {part : Content} {cause : Fault} :
    (arguments.mapM (Run.evaluate rounds depth)).run.run machine =
      (.ok (front ++ value :: others), middle) →
    Shows front part → value.shown = .error cause →
    PrintStopped rounds arguments machine (depth + 1) (.fault cause) (middle.written part)

open Run in
theorem Moment.InOrder.printStopped {rounds depth : Nat} {arguments : List Expr}
    {machine left : Machine} {stop : Stop}
    (order : Moment.InOrder ⟨.execution (.print arguments), depth, machine⟩)
    (ran : (execute rounds depth (.print arguments)).run.run machine = (.error stop, left)) :
    PrintStopped rounds arguments machine depth stop left := by
  cases depth with
  | zero =>
      cases ran
      exact .tooDeep
  | succ depth =>
      cases evaluated : (arguments.mapM (evaluate rounds depth)).run.run machine with
      | mk ended middle =>
          cases ended with
          | error signal =>
              rw [execute, run_bind_error evaluated] at ran
              cases ran
              exact .arguments evaluated
          | ok values =>
              have before : Moment.InOrder ⟨.evaluations arguments, depth, machine⟩ :=
                order.starts rounds .printed
              obtain ⟨height, guarded⟩ := before.left rounds
              have same : Moment.left rounds ⟨.evaluations arguments, depth, machine⟩ = middle :=
                congrArg Prod.snd (run_bind_ok evaluated fun _ => pure ())
              rw [same] at guarded
              rw [run_print guarded.unclobbered evaluated] at ran
              rcases shows_or_error values with
                ⟨line, shows⟩ | ⟨front, value, others, line, cause, rfl, shows, failed⟩
              · rw [run_printLine_of_shows shows] at ran
                cases ran
              · rw [run_printLine_of_error shows failed] at ran
                cases ran
                exact .value evaluated shows failed

end

namespace Machine

section

variable [Limits]

theorem runSource_of_failsWith {source : String} {program : Program} {machine : Machine}
    {cause : Fault} {console : Console} (compiled : compile source = .ok program)
    (fails : Run.FailsWith cause console
      (Run.runBlock (Run.execute Run.roundLimit Run.depthLimit) program.statements) machine) :
    (machine.runSource source).1 = some (.stopped (.fault cause)) ∧
      (machine.runSource source).2.console = console := by
  obtain ⟨left, ran, same⟩ := fails
  have programRan : (Run.programWithin Run.roundLimit Run.depthLimit program).run.run machine =
      (.error (.fault cause), left) := ran
  simp [runSource, compiled, runProgram, runProgramWithin, programRan, same]

/-- The output of a text that is run on a new machine, whose console has no output yet: it consists of
whole lines, or the text is stopped by a fault with which a line was cut short. -/
theorem runSource_lines_or_cut {source : String} {program : Program}
    (compiled : compile source = .ok program) (console : Console) (fresh : console.output = .plain "") :
    ((new console).runSource source).2.console.output.IsLines ∨
    ∃ moment lines part cause, Reaches Run.roundLimit ((new console).beginning program) moment ∧
      CutShort Run.roundLimit moment part cause ∧ lines.IsLines ∧
      ((new console).runSource source).1 = some (.stopped (.fault cause)) ∧
      ((new console).runSource source).2.console.output = lines ++ part := by
  have output : ((new console).runSource source).2 =
      ((new console).beginning program).left Run.roundLimit := by
    rw [← runProgram_snd, runSource, compiled]
  rcases (Run.composes_writesLines Run.roundLimit).work ((new console).beginning program) with
    ⟨lines, same, areLines⟩ | ⟨moment, lines, part, cause, reaches, cut, areLines, stopped, same⟩
  · left
    have whole : (((new console).beginning program).left Run.roundLimit).console.output =
        console.output ++ lines := same
    rwa [output, whole, fresh, Content.empty_append]
  · right
    have whole : (((new console).beginning program).left Run.roundLimit).console.output =
        console.output ++ (lines ++ part) := same
    have fails : Run.FailsWith cause _
        (Run.runBlock (Run.execute Run.roundLimit Run.depthLimit) program.statements) (new console) :=
      ⟨_, Prod.ext stopped rfl, rfl⟩
    refine ⟨moment, lines, part, cause, reaches, cut, areLines,
      (runSource_of_failsWith compiled fails).1, ?_⟩
    rw [output, whole, fresh, Content.empty_append]

theorem not_isLines_of_cut {source : String} {program : Program}
    (compiled : compile source = .ok program) {machine : Machine} {moment : Moment} {part : Content}
    {cause : Fault} (reaches : Reaches Run.roundLimit (machine.beginning program) moment)
    (cut : CutShort Run.roundLimit moment part cause) :
    ¬(machine.runSource source).2.console.output.IsLines := by
  obtain ⟨console, fails, blank⟩ := cut.failsWith
  have same : (machine.runSource source).2.console = console :=
    (runSource_of_failsWith compiled (Reaches.failsWith reaches fails)).2
  rw [same]
  exact Content.not_isLines_of_blank blank

/-- The output of a text that is run on a new machine consists of whole lines exactly if nothing
without a text is printed behind a value that has one. Otherwise the text is stopped by the fault of the
value, and behind whole lines stand the texts of the values before it. A print statement that is
stopped has written nothing of its line, or the texts of the values before the first that has none. -/
theorem runSource_writes_lines (source : String) (input : List (Option String))
    (clock : Number.Binary64) :
    let start := new { input := input, clock := clock }
    let ran := start.runSource source
    (ran.2.console.output.IsLines ↔ ∀ program moment value others middle,
      compile source = .ok program → Reaches Run.roundLimit (start.beginning program) moment →
      Printing Run.roundLimit moment (value :: others) middle → value.Legible →
      ∀ other ∈ others, other.Legible) ∧
    (¬ran.2.console.output.IsLines →
      ∃ (lines part : Content) (values : List Value) (value : Value) (cause : Fault),
      ran.2.console.output = lines ++ part ∧ lines.IsLines ∧ values ≠ [] ∧ Shows values part ∧
      value.shown = .error cause ∧ ran.1 = some (.stopped (.fault cause))) ∧
    ∀ program arguments depth machine stop left, compile source = .ok program →
      Reaches Run.roundLimit (start.beginning program)
        ⟨.execution (.print arguments), depth, machine⟩ →
      (Run.execute Run.roundLimit depth (.print arguments)).run.run machine = (.error stop, left) →
      PrintStopped Run.roundLimit arguments machine depth stop left := by
  intro start ran
  cases compiled : compile source with
  | error failure =>
      have empty : ran.2.console.output = .plain "" := by
        change (start.runSource source).2.console.output = _
        rw [runSource, compiled]
        rfl
      have areLines : ran.2.console.output.IsLines := .inl empty
      simp [areLines]
  | ok program =>
      refine ⟨⟨?_, ?_⟩, ?_, ?_⟩
      · rintro areLines _ moment value others middle ⟨⟩ reaches printing legible other member
        apply Classical.byContradiction
        intro illegible
        obtain ⟨part, cause, cut⟩ := exists_cutShort_iff.mpr
          ⟨value, others, middle, printing, legible, other, member, illegible⟩
        exact not_isLines_of_cut compiled reaches cut areLines
      · intro allLegible
        rcases runSource_lines_or_cut compiled { input := input, clock := clock } rfl with
          areLines | ⟨moment, _, part, cause, reaches, cut, _⟩
        · exact areLines
        · obtain ⟨value, others, middle, printing, legible, other, member, illegible⟩ :=
            exists_cutShort_iff.mp ⟨part, cause, cut⟩
          exact absurd
            (allLegible program moment value others middle rfl reaches printing legible other member)
            illegible
      · intro notLines
        rcases runSource_lines_or_cut compiled { input := input, clock := clock } rfl with
          areLines | ⟨moment, lines, part, cause, reaches, cut, areLines, stopped, output⟩
        · exact absurd areLines notLines
        · cases cut with
          | before _ given shows failed =>
              exact ⟨lines, part, _, _, cause, output, areLines, given, shows, failed, stopped⟩
      · rintro _ arguments depth machine stop left ⟨⟩ reaches stopped
        exact (inOrder_of_reaches _ [] compiled reaches).printStopped stopped

end

def hugeSecond : String :=
  "func q(x):\n return x*x*x*x\nprintline(1, q(q(q(q(q(q(100)))))))"

/-- The number before the one that has no text is written, and no line end. -/
theorem runSource_hugeSecond :
    let ran := (new {}).runSource hugeSecond
    ran.1.isSome = true ∧ ran.2.console.output = .plain "1 " ∧ ¬ran.2.console.output.IsLines := by
  decide +kernel

end Machine

end IndentScript
