import IndentScript.Proofs.RenamedTexts

/-!
Work that looks at nothing outside the variables. From outside come the lines of the input, the time,
and the place in memory of something that was made since, which a template can show. Work without such
a look goes the same way on every machine with the same variables, whatever is on the console and
whichever identities are given next: it ends alike, with other identities in the place of those that it
gives.
-/

namespace IndentScript

/-! ### Looks outside -/

def Service.isOutside : Service → Bool
  | .readLine | .clock => true
  | .print | .range | .sleep => false

section

variable [Limits]

open Run in
inductive Moment.Reads (rounds : Nat) : Moment → Prop where
  | call {callee : String} {arguments : List Expr} {depth identity : Nat} {machine middle : Machine}
      {service : Service} {values : List Value} :
    find? callee machine.scopes = some (.service identity service) → service.isOutside = true →
    (arguments.mapM (evaluate rounds depth)).run.run machine = (.ok values, middle) →
    Reads rounds ⟨.evaluation (.call callee arguments), depth + 1, machine⟩
  | print {arguments : List Expr} {depth identity : Nat} {machine middle : Machine}
      {service : Service} {values : List Value} :
    (arguments.mapM (evaluate rounds depth)).run.run machine = (.ok values, middle) →
    Entries.get? "printline" middle.globals = some (.service identity service) →
    service.isOutside = true →
    Reads rounds ⟨.execution (.print arguments), depth + 1, machine⟩

open Run in
/-- At the moment a template shows the place in memory of something that was made since, which has an
identity from `since` on. -/
inductive Moment.ShowsPlace (rounds since : Nat) : Moment → Prop where
  | template {left right : Expr} {depth identity : Nat} {machine middle last : Machine}
      {template : Content} {value : Value} :
    (evaluate rounds depth left).run.run machine = (.ok (.text template), middle) →
    (evaluate rounds depth right).run.run middle = (.ok value, last) →
    identity ∈ value.shownIdentities → since ≤ identity →
    ShowsPlace rounds since ⟨.evaluation (.binary left .percent right), depth + 1, machine⟩

/-- In the course of the work of the moment neither a line nor the time is read. -/
def Moment.ReadsNothing (rounds : Nat) (moment : Moment) : Prop :=
  ∀ next, Reaches rounds moment next → ¬next.Reads rounds

/-- In the course of the work of the moment nothing outside is looked at. -/
structure Moment.IsSecluded (rounds since : Nat) (moment : Moment) : Prop where
  readsNothing : moment.ReadsNothing rounds
  showsNothing : ∀ next, Reaches rounds moment next → ¬next.ShowsPlace rounds since

theorem Moment.IsSecluded.part {rounds since : Nat} {moment next : Moment}
    (secluded : moment.IsSecluded rounds since) (starts : Starts rounds moment next) :
    next.IsSecluded rounds since :=
  ⟨fun later reaches => secluded.readsNothing later (reaches.head starts),
    fun later reaches => secluded.showsNothing later (reaches.head starts)⟩

end

/-! ### Machines with other identities -/

def Stop.renamed (rename : Nat → Nat) : Stop → Stop
  | .result value => .result (value.renamed rename)
  | stop => stop

/-- The twin has the same variables with other identities. The identities that it gives next are those
that come in the place of the ones that the machine gives. -/
structure Renames (rename : Nat → Nat) (machine twin : Machine) : Prop where
  scopes : twin.scopes = machine.scopes.map (Value.renamedFields rename)
  next : ∀ count, rename (machine.nextIdentity + count) = twin.nextIdentity + count

theorem Renames.enter {rename : Nat → Nat} {machine twin : Machine}
    (renames : Renames rename machine twin) (entries : Entries Value) :
    Renames rename (machine.enter entries) (twin.enter (Value.renamedFields rename entries)) := by
  refine ⟨?_, renames.next⟩
  rw [Machine.enter, renames.scopes]
  rfl

namespace Value

variable {rename : Nat → Nat}

theorem set_renamedFields (name : String) (value : Value) (entries : Entries Value) :
    Entries.set name (value.renamed rename) (renamedFields rename entries) =
      renamedFields rename (Entries.set name value entries) := by
  induction entries with
  | nil => rfl
  | cons entry rest ih =>
      obtain ⟨key, held⟩ := entry
      rw [renamedFields, Entries.set, Entries.set]
      by_cases same : key = name
      · rw [if_pos same, if_pos same]
        rfl
      · rw [if_neg same, if_neg same, ih]
        rfl

theorem ofPairs_renamed (parameters : List String) (values : List Value) :
    Entries.ofPairs (parameters.zip (values.map (renamed rename))) =
      renamedFields rename (Entries.ofPairs (parameters.zip values)) := by
  have folded : ∀ (pairs : List (String × Value)) (before : Entries Value),
      (pairs.map (Prod.map id (renamed rename))).foldl
        (fun entries pair => Entries.set pair.1 pair.2 entries) (renamedFields rename before) =
      renamedFields rename
        (pairs.foldl (fun entries pair => Entries.set pair.1 pair.2 entries) before) := by
    intro pairs
    induction pairs with
    | nil => exact fun _ => rfl
    | cons pair rest ih =>
        intro before
        rw [List.map_cons, List.foldl_cons, List.foldl_cons, ← ih, ← set_renamedFields]
        rfl
  rw [Entries.ofPairs, List.zip_map_right]
  exact folded _ []

end Value

namespace Run

section

variable {rename : Nat → Nat}

theorem find?_renamed (name : String) (scopes : Scopes) :
    find? name (scopes.map (Value.renamedFields rename)) =
      (find? name scopes).map (Value.renamed rename) := by
  induction scopes with
  | nil => rfl
  | cons scope outer ih =>
      rw [find?] at ih ⊢
      rw [List.map_cons, find?, List.findSome?_cons, List.findSome?_cons, Value.get?_renamedFields]
      cases Entries.get? name scope with
      | some value => rfl
      | none => exact ih

theorem assigned_renamed (name : String) (value : Value) (scopes : Scopes) :
    assigned name (value.renamed rename) (scopes.map (Value.renamedFields rename)) =
      (assigned name value scopes).map (Value.renamedFields rename) := by
  cases scopes with
  | nil => rfl
  | cons scope outer => rw [List.map_cons, assigned, Value.set_renamedFields, assigned, List.map_cons]

theorem globals_renamed {machine twin : Machine} (renames : Renames rename machine twin) :
    twin.globals = Value.renamedFields rename machine.globals := by
  rw [Machine.globals, Machine.globals, renames.scopes, List.getLast?_map]
  cases machine.scopes.getLast? with
  | none => rfl
  | some scope => rfl

/-! ### Runs side by side -/

variable {α β : Type}

def renamedEnd (rename : Nat → Nat) (convert : α → α) : Except Stop α → Except Stop α
  | .ok found => .ok (convert found)
  | .error stop => .error (stop.renamed rename)

/-- On a twin of the machine the second run goes as the first one does on the machine. The values that
they give are converted into each other. -/
def Follows (rename : Nat → Nat) (convert : α → α) (run twinRun : Run α) (machine : Machine) : Prop :=
  ∀ twin, Renames rename machine twin → ∃ twinLeft,
    twinRun.run.run twin = (renamedEnd rename convert (run.outcome machine), twinLeft) ∧
      Renames rename (run.after machine) twinLeft

variable {convert : α → α} {convertNext : β → β} {machine : Machine}

theorem follows_pure (found : α) :
    Follows rename convert (pure found) (pure (convert found)) machine :=
  fun twin renames => ⟨twin, rfl, renames⟩

theorem follows_throw (stop : Stop) :
    Follows rename convert (throw stop) (throw (stop.renamed rename)) machine :=
  fun twin renames => ⟨twin, rfl, renames⟩

theorem follows_fail (cause : Fault) :
    Follows rename convert (fail cause) (fail cause) machine :=
  follows_throw (.fault cause)

theorem follows_ofExcept (computed : Except Fault α) :
    Follows rename id (ofExcept computed) (ofExcept computed) machine := by
  cases computed with
  | ok found => exact follows_pure found
  | error cause => exact follows_fail cause

theorem follows_write (text twinText : Content) :
    Follows rename id (write text) (write twinText) machine :=
  fun _ renames => ⟨_, rfl, renames.scopes, renames.next⟩

theorem Follows.bind {first twinFirst : Run α} {next twinNext : α → Run β}
    (follows : Follows rename convert first twinFirst machine)
    (followsNext : ∀ found middle, first.run.run machine = (.ok found, middle) →
      Follows rename convertNext (next found) (twinNext (convert found)) middle) :
    Follows rename convertNext (first >>= next) (twinFirst >>= twinNext) machine := by
  intro twin renames
  obtain ⟨twinMiddle, twinRan, renamesMiddle⟩ := follows twin renames
  cases ran : first.run.run machine with
  | mk ended middle =>
      rw [outcome, ran] at twinRan
      rw [after, ran] at renamesMiddle
      rw [outcome, after]
      cases ended with
      | ok found =>
          rw [run_bind_ok ran, run_bind_ok twinRan]
          exact followsNext found middle ran twinMiddle renamesMiddle
      | error stop =>
          rw [run_bind_error ran, run_bind_error twinRan]
          exact ⟨twinMiddle, rfl, renamesMiddle⟩

theorem Follows.discard {run twinRun : Run α} (follows : Follows rename convert run twinRun machine) :
    Follows rename id (discard run) (discard twinRun) machine :=
  follows.bind fun _ _ _ => follows_pure ()

/-! Variables. -/

theorem find?_of_lookup {name : String} {value : Value} {left : Machine}
    (ran : (lookup name).run.run machine = (.ok value, left)) :
    find? name machine.scopes = some value ∧ machine = left := by
  cases found : find? name machine.scopes with
  | some one =>
      rw [run_lookup_some found] at ran
      cases ran
      exact ⟨rfl, rfl⟩
  | none =>
      rw [run_lookup_none found] at ran
      cases ran

theorem get?_of_lookupGlobal {name : String} {value : Value} {left : Machine}
    (ran : (lookupGlobal name).run.run machine = (.ok value, left)) :
    Entries.get? name machine.globals = some value := by
  rw [lookupGlobal, run_get_bind] at ran
  cases found : Entries.get? name machine.globals with
  | some one =>
      rw [found] at ran
      cases ran
      rfl
  | none =>
      rw [found] at ran
      cases ran

theorem follows_lookup (name : String) :
    Follows rename (Value.renamed rename) (lookup name) (lookup name) machine := by
  intro twin renames
  have same : find? name twin.scopes = (find? name machine.scopes).map (Value.renamed rename) := by
    rw [renames.scopes, find?_renamed]
  cases found : find? name machine.scopes with
  | some value =>
      rw [found] at same
      rw [outcome, after, run_lookup_some found, run_lookup_some same]
      exact ⟨twin, rfl, renames⟩
  | none =>
      rw [found] at same
      rw [outcome, after, run_lookup_none found, run_lookup_none same]
      exact ⟨twin, rfl, renames⟩

theorem follows_lookupGlobal (name : String) :
    Follows rename (Value.renamed rename) (lookupGlobal name) (lookupGlobal name) machine := by
  intro twin renames
  refine ⟨twin, ?_, ?_⟩
  · rw [lookupGlobal, run_get_bind, globals_renamed renames, Value.get?_renamedFields, outcome,
      run_get_bind]
    cases Entries.get? name machine.globals with
    | some value => rfl
    | none => rfl
  · rw [lookupGlobal, after, run_get_bind]
    cases Entries.get? name machine.globals with
    | some value => exact renames
    | none => exact renames

theorem follows_assign (name : String) (value : Value) :
    Follows rename id (assign name value) (assign name (value.renamed rename)) machine := by
  intro twin renames
  refine ⟨_, rfl, ?_, renames.next⟩
  have scopes : assigned name (value.renamed rename) twin.scopes =
      (assigned name value machine.scopes).map (Value.renamedFields rename) := by
    rw [renames.scopes, assigned_renamed]
  exact scopes

theorem follows_newIdentity : Follows rename rename newIdentity newIdentity machine := by
  intro twin renames
  have own : rename machine.nextIdentity = twin.nextIdentity := renames.next 0
  refine ⟨{ twin with nextIdentity := twin.nextIdentity + 1 }, ?_, renames.scopes, ?_⟩
  · change (Except.ok twin.nextIdentity, _) = (Except.ok (rename machine.nextIdentity), _)
    rw [own]
  · intro count
    have later := renames.next (1 + count)
    rwa [← Nat.add_assoc, ← Nat.add_assoc] at later

/-! Services. The texts of the twins may differ, but a value has a text if its twin has one. -/

section

variable [Limits]

private theorem follows_printValue (value : Value) :
    Follows rename id (printValue value) (printValue (value.renamed rename)) machine := by
  have agree : Agree (fun _ _ => True) (value.renamed rename).shown value.shown := value.agree_shown
  unfold printValue
  generalize (value.renamed rename).shown = twinShown at agree
  generalize value.shown = shown at agree
  cases agree with
  | ok _ => exact follows_write _ _
  | error cause => exact follows_fail cause

theorem follows_printLine (values : List Value) :
    Follows rename id (printLine values) (printLine (values.map (Value.renamed rename))) machine := by
  have printed : Follows rename id (values.forM printValue)
      ((values.map (Value.renamed rename)).forM printValue) machine := by
    induction values generalizing machine with
    | nil => exact follows_pure ()
    | cons value rest ih => exact (follows_printValue value).bind fun _ _ _ => ih
  exact printed.bind fun _ _ _ => follows_write _ _

theorem follows_perform {service : Service} (inside : service.isOutside = false)
    (arguments : List Value) :
    Follows rename (Value.renamed rename) (perform service arguments)
      (perform service (arguments.map (Value.renamed rename))) machine := by
  cases service with
  | print => exact (follows_printLine arguments).bind fun _ _ _ => follows_pure Value.none
  | range =>
      rcases arguments with _ | ⟨one, _ | ⟨second, rest⟩⟩
      · exact follows_fail _
      · exact follows_pure one
      · exact follows_fail _
  | readLine => cases inside
  | clock => cases inside
  | sleep =>
      have length : (arguments.map (Value.renamed rename)).headD (.int 1) =
          (arguments.headD (.int 1)).renamed rename := by
        cases arguments with
        | nil => rfl
        | cons first rest => rfl
      have slept : Follows rename id (sleep (arguments.headD (.int 1)))
          (sleep ((arguments.headD (.int 1)).renamed rename)) machine := by
        rw [sleep, sleep, sleepLength_renamed]
        apply (follows_ofExcept _).bind
        intro seconds _ _ twin renames
        exact ⟨_, rfl, renames.scopes, renames.next⟩
      rw [perform, perform, length]
      exact slept.bind fun _ _ _ => follows_pure Value.none

theorem follows_printWith {printer : Value} (arguments : List Value)
    (inside : ∀ identity service, printer = .service identity service → service.isOutside = false) :
    Follows rename id (printWith printer arguments)
      (printWith (printer.renamed rename) (arguments.map (Value.renamed rename))) machine := by
  cases printer with
  | service identity offered => exact (follows_perform (inside identity offered rfl) arguments).discard
  | _ => exact follows_fail _

end

theorem follows_load (library : String) :
    Follows rename id (load library) (load library) machine := by
  unfold load
  split
  · apply follows_newIdentity.bind
    intro clock _ _
    apply (follows_assign "time_time" (.service clock .clock)).bind
    intro _ _ _
    apply follows_newIdentity.bind
    intro sleep _ _
    exact follows_assign "time_sleep" (.service sleep .sleep)
  · exact follows_pure ()

/-! Operators. A number that is none gets an identity of its own on each of the machines. -/

private theorem follows_distinguish {value : Value} (bare : value.isBare = true) :
    Follows rename (Value.renamed rename) (distinguish value) (distinguish value) machine := by
  rcases Value.identities_of_isBare bare with ⟨payload, rfl⟩ | nothing
  · exact follows_newIdentity.bind fun identity _ _ => follows_pure (Value.float (.nan identity))
  · have same : value.renamed rename = value := by
      apply Value.renamed_of_fixed
      rw [nothing]
      exact List.forall_mem_nil _
    have pures : Follows rename (Value.renamed rename) (pure value)
        (pure (value.renamed rename)) machine := follows_pure value
    rw [distinguish_of_identities nothing]
    rwa [same] at pures

theorem follows_operate [Limits] (injective : Function.Injective rename) {operator : Operator}
    {left right : Value}
    (unseen : ∀ template, operator = .percent → left = .text template →
      Fixed rename right.shownIdentities) :
    Follows rename (Value.renamed rename) (operate operator left right)
      (operate operator (left.renamed rename) (right.renamed rename)) machine := by
  have applies : operator ≠ .and → operator ≠ .or → Follows rename (Value.renamed rename)
      (ofExcept (operator.apply left right) >>= distinguish)
      (ofExcept (operator.apply (left.renamed rename) (right.renamed rename)) >>= distinguish)
      machine := by
    intro notAnd notOr
    have bare := Operator.isBare_apply notAnd notOr left right
    rw [Operator.apply_renamed injective notAnd notOr unseen]
    cases applied : operator.apply left right with
    | ok value => exact follows_distinguish (bare value applied)
    | error cause => exact follows_fail cause
  -- what `and` and `or` choose keeps its identity, so it is renamed and not computed anew
  cases operator with
  | and =>
      unfold operate Operator.apply
      dsimp only
      rw [Value.isTrue_renamed, ← apply_ite (Value.renamed rename)]
      exact follows_pure _
  | or =>
      unfold operate Operator.apply
      dsimp only
      rw [Value.isTrue_renamed, ← apply_ite (Value.renamed rename)]
      exact follows_pure _
  | _ => exact applies Operator.noConfusion Operator.noConfusion

/-! Scopes, rounds and functions. -/

theorem Follows.inScope {entries : Entries Value} {body twinBody : Run α}
    (follows : Follows rename convert body twinBody (machine.enter entries)) :
    Follows rename convert (inScope entries body)
      (inScope (Value.renamedFields rename entries) twinBody) machine := by
  intro twin renames
  obtain ⟨twinLeft, twinRan, renamesLeft⟩ := follows _ (renames.enter entries)
  refine ⟨{ twinLeft with scopes := twinLeft.scopes.drop 1 }, ?_, ?_, renamesLeft.next⟩
  · rw [run_inScope]
    exact congrArg (Prod.map id fun left : Machine => { left with scopes := left.scopes.drop 1 }) twinRan
  · change twinLeft.scopes.drop 1 =
      ((body.after (machine.enter entries)).scopes.drop 1).map (Value.renamedFields rename)
    rw [renamesLeft.scopes, List.map_drop]

private theorem loopEnd_renamed (ended : Except Stop Unit) :
    loopEnd (renamedEnd rename id ended) = renamedEnd rename id (loopEnd ended) := by
  cases ended with
  | ok _ => rfl
  | error stop => cases stop <;> rfl

private theorem callEnd_renamed (ended : Except Stop Unit) :
    callEnd (renamedEnd rename id ended) =
      renamedEnd rename (Value.renamed rename) (callEnd ended) := by
  cases ended with
  | ok _ => rfl
  | error stop => cases stop <;> rfl

theorem Follows.round {entries : Entries Value} {body twinBody : Run Unit}
    (follows : Follows rename id body twinBody (machine.enter entries)) :
    Follows rename id (round entries body)
      (round (Value.renamedFields rename entries) twinBody) machine := by
  intro twin renames
  obtain ⟨twinLeft, twinRan, renamesLeft⟩ := follows.inScope twin renames
  refine ⟨twinLeft, ?_, ?_⟩
  · rw [outcome_round, ← loopEnd_renamed, run_round, outcome, after, twinRan]
  · rw [after, run_round]
    exact renamesLeft

theorem Follows.returning {body twinBody : Run Unit}
    (follows : Follows rename id body twinBody machine) :
    Follows rename (Value.renamed rename) (returning body) (returning twinBody) machine := by
  intro twin renames
  obtain ⟨twinLeft, twinRan, renamesLeft⟩ := follows twin renames
  refine ⟨twinLeft, ?_, ?_⟩
  · rw [outcome_returning, ← callEnd_renamed, run_returning, outcome, after, twinRan]
  · rw [after, run_returning]
    exact renamesLeft

end

/-! ### Secluded work

Work that is secluded has secluded parts, so the runs side by side are put together along its moments.
First the pieces that do not nest deeper, from the single expressions and statements. -/

variable [Limits]

section

variable {rename : Nat → Nat} {rounds depth since : Nat}
  (evaluates : ∀ expression machine,
    Moment.IsSecluded rounds since ⟨.evaluation expression, depth, machine⟩ →
    Follows rename (Value.renamed rename) (evaluate rounds depth expression)
      (evaluate rounds depth (expression.renamed rename)) machine)
  (executes : ∀ statement machine,
    Moment.IsSecluded rounds since ⟨.execution statement, depth, machine⟩ →
    Follows rename id (execute rounds depth statement)
      (execute rounds depth (statement.renamed rename)) machine)

include evaluates in
private theorem follows_evaluations (expressions : List Expr) {machine : Machine}
    (secluded : Moment.IsSecluded rounds since ⟨.evaluations expressions, depth, machine⟩) :
    Follows rename (List.map (Value.renamed rename)) (expressions.mapM (evaluate rounds depth))
      ((Expr.renamedAll rename expressions).mapM (evaluate rounds depth)) machine := by
  induction expressions generalizing machine with
  | nil => exact follows_pure []
  | cons expression others ih =>
      rw [Expr.renamedAll, List.mapM_cons, List.mapM_cons]
      apply (evaluates expression machine (secluded.part .firstExpression)).bind
      intro found middle ran
      apply (ih (secluded.part (.otherExpressions ran))).bind
      intro rest _ _
      exact follows_pure (found :: rest)

include evaluates in
private theorem follows_fields (entries : List (String × Expr)) {machine : Machine}
    (secluded : Moment.IsSecluded rounds since
      ⟨.evaluations (entries.map Prod.snd), depth, machine⟩) :
    Follows rename (Value.renamedFields rename)
      (entries.mapM fun entry => do
        let value ← evaluate rounds depth entry.2
        return (entry.1, value))
      ((Expr.renamedFields rename entries).mapM fun entry => do
        let value ← evaluate rounds depth entry.2
        return (entry.1, value)) machine := by
  induction entries generalizing machine with
  | nil => exact follows_pure []
  | cons entry others ih =>
      obtain ⟨name, expression⟩ := entry
      rw [Expr.renamedFields, List.mapM_cons, List.mapM_cons, bind_assoc, bind_assoc]
      apply (evaluates expression machine (secluded.part .firstExpression)).bind
      intro found middle ran
      rw [pure_bind, pure_bind]
      apply (ih (secluded.part (.otherExpressions ran))).bind
      intro rest _ _
      exact follows_pure ((name, found) :: rest)

include executes in
private theorem follows_executions (block : Block) {machine : Machine}
    (secluded : Moment.IsSecluded rounds since ⟨.executions block, depth, machine⟩) :
    Follows rename id (runBlock (execute rounds depth) block)
      (runBlock (execute rounds depth) (Stmt.renamedAll rename block)) machine := by
  induction block generalizing machine with
  | nil => exact follows_pure ()
  | cons statement others ih =>
      apply (executes statement machine (secluded.part .firstStatement)).bind
      intro _ middle ran
      exact ih (secluded.part (.otherStatements ran))

include evaluates executes in
private theorem follows_choice (last : Block) (arms : List (Expr × Block)) {machine : Machine}
    (secluded : Moment.IsSecluded rounds since ⟨.choice last arms, depth, machine⟩) :
    Follows rename id
      (chooseArm (evaluate rounds depth) (runBlock (execute rounds depth)) last arms)
      (chooseArm (evaluate rounds depth) (runBlock (execute rounds depth))
        (Stmt.renamedAll rename last) (Stmt.renamedArms rename arms)) machine := by
  induction arms generalizing machine with
  | nil => exact follows_executions executes last (secluded.part .otherwise)
  | cons arm rest ih =>
      obtain ⟨condition, body⟩ := arm
      apply (evaluates condition machine (secluded.part .test)).bind
      intro found middle ran
      rw [Value.isTrue_renamed]
      cases holds : found.isTrue with
      | true => exact follows_executions executes body (secluded.part (.taken ran holds))
      | false => exact ih (secluded.part (.passed ran holds))

include executes in
private theorem follows_counting (name : String) (body : Block) (start left : Nat) {machine : Machine}
    (secluded : Moment.IsSecluded rounds since ⟨.counting name body start left, depth, machine⟩) :
    Follows rename id
      (countUp (fun index => round [(name, .int index)] (runBlock (execute rounds depth) body))
        start left)
      (countUp (fun index => round [(name, .int index)]
        (runBlock (execute rounds depth) (Stmt.renamedAll rename body))) start left) machine := by
  induction left generalizing start machine with
  | zero => exact follows_pure ()
  | succ left ih =>
      apply (follows_executions executes body (secluded.part .countRound)).round.bind
      intro goesOn middle ran
      cases goesOn with
      | true => exact ih (start + 1) (secluded.part (.countOn ran))
      | false => exact follows_pure ()

include evaluates executes in
private theorem follows_looping (condition : Expr) (body : Block) (left : Nat) {machine : Machine}
    (secluded : Moment.IsSecluded rounds since ⟨.looping condition body left, depth, machine⟩) :
    Follows rename id
      (whileTrue (evaluate rounds depth condition)
        (round [] (runBlock (execute rounds depth) body)) left)
      (whileTrue (evaluate rounds depth (condition.renamed rename))
        (round [] (runBlock (execute rounds depth) (Stmt.renamedAll rename body))) left)
      machine := by
  induction left generalizing machine with
  | zero => exact follows_throw .unfinished
  | succ left ih =>
      apply (evaluates condition machine (secluded.part .loopTest)).bind
      intro found middle ran
      rw [Value.isTrue_renamed]
      cases holds : found.isTrue with
      | false => exact follows_pure ()
      | true =>
          apply (follows_executions executes body (secluded.part (.loopRound ran holds))).round.bind
          intro goesOn last ranRound
          cases goesOn with
          | true => exact ih (secluded.part (.loopOn ran holds ranRound))
          | false => exact follows_pure ()

/-! Then one level of an expression and of a statement. -/

variable (injective : Function.Injective rename) (fixes : ∀ identity < since, rename identity = identity)

include evaluates executes injective fixes in
private theorem follows_evaluate_succ (expression : Expr) (machine : Machine)
    (secluded : Moment.IsSecluded rounds since ⟨.evaluation expression, depth + 1, machine⟩) :
    Follows rename (Value.renamed rename) (evaluate rounds (depth + 1) expression)
      (evaluate rounds (depth + 1) (expression.renamed rename)) machine := by
  cases expression with
  | literal value =>
      rw [Expr.renamed, evaluate, evaluate, Value.ofLiteral_renamed]
      exact follows_pure _
  | «variable» name => exact follows_lookup name
  | binary left operator right =>
      apply (evaluates left machine (secluded.part .left)).bind
      intro leftValue middle ran
      apply (evaluates right middle (secluded.part (.right ran))).bind
      intro rightValue last ranRight
      apply follows_operate injective
      rintro template rfl rfl identity shown
      -- an identity that is given since would be a look outside
      apply fixes
      apply Nat.lt_of_not_le
      intro givenSince
      exact secluded.showsNothing _ .refl (.template ran ranRight shown givenSince)
  | table entries =>
      apply (follows_fields evaluates entries (secluded.part .fields)).bind
      intro fields middle _
      exact follows_newIdentity.bind fun identity _ _ => follows_pure (Value.table identity fields)
  | call callee arguments =>
      apply (follows_lookup callee).bind
      intro value middle looked
      obtain ⟨found, rfl⟩ := find?_of_lookup looked
      apply (follows_evaluations evaluates arguments (secluded.part (.arguments found))).bind
      intro values last ran
      cases value with
      | function identity parameters body =>
          -- the twin has the same body with other identities in its constants
          have inBody := follows_executions executes body (secluded.part (.called found ran))
          have called := inBody.returning.inScope
          rw [← Value.ofPairs_renamed] at called
          exact called
      | service identity offered =>
          apply follows_perform
          apply eq_false_of_ne_true
          intro outside
          exact secluded.readsNothing _ .refl (.call found outside ran)
      | _ => exact follows_fail _
  | misplaced sort => exact follows_fail _
  | lacking sort part => exact follows_fail _

include evaluates executes in
private theorem follows_execute_succ (statement : Stmt) (machine : Machine)
    (secluded : Moment.IsSecluded rounds since ⟨.execution statement, depth + 1, machine⟩) :
    Follows rename id (execute rounds (depth + 1) statement)
      (execute rounds (depth + 1) (statement.renamed rename)) machine := by
  cases statement with
  | print arguments =>
      apply (follows_evaluations evaluates arguments (secluded.part .printed)).bind
      intro values middle ran
      apply (follows_lookupGlobal "printline").bind
      intro printer last looked
      apply follows_printWith
      rintro identity service rfl
      apply eq_false_of_ne_true
      intro outside
      exact secluded.readsNothing _ .refl (.print ran (get?_of_lookupGlobal looked) outside)
  | assign name value =>
      apply (evaluates value machine (secluded.part .assigned)).bind
      intro found _ _
      exact follows_assign name found
  | branch condition body arms otherwise =>
      have chosen := follows_choice evaluates executes _ _ (secluded.part .branch)
      cases otherwise <;> exact chosen
  | count name limit body =>
      apply (evaluates limit machine (secluded.part .limit)).bind
      intro found middle ran
      rw [Value.integer?_renamed, Value.dataType_renamed]
      cases bounded : found.integer? with
      | none => exact follows_fail _
      | some bound =>
          exact follows_counting executes name body 0 bound.toNat
            (secluded.part (.count ran bounded))
  | loop condition body =>
      exact follows_looping evaluates executes condition body rounds (secluded.part .loop)
  | leave => exact follows_throw .leave
  | next => exact follows_throw .next
  | define name parameters body =>
      apply follows_newIdentity.bind
      intro identity _ _
      exact follows_assign name (.function identity parameters body)
  | result value =>
      cases value with
      | none => exact follows_throw (.result .none)
      | some value =>
          apply (evaluates value machine (secluded.part .result)).bind
          intro found _ _
          exact follows_throw (.result found)
  | load library => exact follows_load library
  | evaluate value => exact (evaluates value machine (secluded.part .evaluated)).discard

end

private theorem follows_evaluate_and_execute {rename : Nat → Nat} {since : Nat}
    (injective : Function.Injective rename) (fixes : ∀ identity < since, rename identity = identity)
    (rounds depth : Nat) :
    (∀ expression machine, Moment.IsSecluded rounds since ⟨.evaluation expression, depth, machine⟩ →
      Follows rename (Value.renamed rename) (evaluate rounds depth expression)
        (evaluate rounds depth (expression.renamed rename)) machine) ∧
    ∀ statement machine, Moment.IsSecluded rounds since ⟨.execution statement, depth, machine⟩ →
      Follows rename id (execute rounds depth statement)
        (execute rounds depth (statement.renamed rename)) machine := by
  induction depth with
  | zero => exact ⟨fun _ _ _ => follows_fail _, fun _ _ _ => follows_fail _⟩
  | succ depth ih =>
      exact ⟨follows_evaluate_succ ih.1 ih.2 injective fixes, follows_execute_succ ih.1 ih.2⟩

/-- A secluded evaluation goes alike on a twin of the machine, if identities stay apart and those stay
as they are that were given before. -/
theorem follows_evaluate {rename : Nat → Nat} {rounds since depth : Nat} {expression : Expr}
    {machine : Machine} (injective : Function.Injective rename)
    (fixes : ∀ identity < since, rename identity = identity)
    (secluded : Moment.IsSecluded rounds since ⟨.evaluation expression, depth, machine⟩) :
    Follows rename (Value.renamed rename) (evaluate rounds depth expression)
      (evaluate rounds depth (expression.renamed rename)) machine :=
  (follows_evaluate_and_execute injective fixes rounds depth).1 expression machine secluded

end Run

/-! ### Later evaluations -/

/-- Moves the identities from `since` on by a distance. -/
def shifted (since distance identity : Nat) : Nat :=
  if identity < since then identity else identity + distance

theorem shifted_injective (since distance : Nat) : Function.Injective (shifted since distance) := by
  intro one other same
  unfold shifted at same
  split at same <;> split at same <;> omega

theorem shifted_of_lt (distance : Nat) {since identity : Nat} (before : identity < since) :
    shifted since distance identity = identity :=
  if_pos before

theorem fixed_shifted (distance : Nat) {since : Nat} {identities : List Nat}
    (below : Below since identities) : Fixed (shifted since distance) identities :=
  fun identity among => shifted_of_lt distance (below identity among)

section

variable {machine later : Machine} {distance : Nat}

/-- A numbered machine has a twin in every machine with the same variables that gives later
identities. -/
theorem Machine.IsNumbered.renames (numbered : machine.IsNumbered)
    (same : later.scopes = machine.scopes)
    (given : later.nextIdentity = machine.nextIdentity + distance) :
    Renames (shifted machine.nextIdentity distance) machine later := by
  constructor
  · have fixed : ∀ scope ∈ machine.scopes,
        scope = Value.renamedFields (shifted machine.nextIdentity distance) scope := by
      -- what the variables hold was given before, and only later identities are moved
      intro scope among
      symm
      apply Value.renamedFields_of_fixed
      apply fixed_shifted
      rw [Value.identitiesOfFields_eq]
      intro identity member
      obtain ⟨entry, isEntry, inEntry⟩ := List.mem_flatMap.mp member
      exact numbered.held scope among entry isEntry identity inEntry
    rw [same]
    exact (List.map_id _).symm.trans (List.map_congr_left fixed)
  · intro count
    unfold shifted
    rw [if_neg (by omega), given]
    omega

open Run in
/-- A secluded evaluation ends alike when the same variables are there again. -/
theorem outcome_evaluate_shifted [Limits] {rounds depth : Nat} {expression : Expr}
    (numbered : Moment.IsNumbered ⟨.evaluation expression, depth, machine⟩)
    (secluded : Moment.IsSecluded rounds machine.nextIdentity ⟨.evaluation expression, depth, machine⟩)
    (same : later.scopes = machine.scopes)
    (given : later.nextIdentity = machine.nextIdentity + distance) :
    let rename := shifted machine.nextIdentity distance
    (evaluate rounds depth expression).outcome later =
      renamedEnd rename (Value.renamed rename) ((evaluate rounds depth expression).outcome machine) := by
  intro rename
  have follows := follows_evaluate (shifted_injective machine.nextIdentity distance)
    (fun _ before => shifted_of_lt distance before) secluded
  rw [Expr.renamed_of_fixed (fixed_shifted distance numbered.work)] at follows
  obtain ⟨left, ran, _⟩ := follows later (numbered.machine.renames same given)
  exact congrArg Prod.fst ran

end

end IndentScript
