import IndentScript.Machine.Evaluator
import IndentScript.Proofs.ValueFaults

/-!
Rules for what runs keep. A run keeps a property of the scopes when it leaves scopes with that
property wherever it finds such, no matter how it ends; with the property go what holds of its
value and what can stop it.

There is one rule for each piece that the evaluator is made of. An invariant of programs is then
an induction on the depth in which every case is put together from these rules.
-/

namespace IndentScript

/-- Scopes of variables, innermost first. -/
abbrev Scopes := List (Entries Value)

/-- A stop that no statement asks for. -/
def Stop.isFailure : Stop → Bool
  | .fault _ | .interrupt | .unfinished => true
  | .leave | .next | .result _ => false

/-- A failure that no tree is to blame for. -/
def Stop.isOrdinary : Stop → Bool
  | .fault cause => !cause.blamesTree
  | .interrupt | .unfinished => true
  | .leave | .next | .result _ => false

theorem Stop.isFailure_of_isOrdinary {stop : Stop} (ordinary : stop.isOrdinary = true) :
    stop.isFailure = true := by
  cases stop with
  | leave | next | result => cases ordinary
  | _ => rfl

theorem Stop.isOrdinary_fault {cause : Fault} (spares : cause.blamesTree = false) :
    (Stop.fault cause).isOrdinary = true := by
  rw [isOrdinary, spares]
  rfl

def Value.isPlain : Value → Bool
  | .table _ _ | .function _ _ _ => false
  | _ => true

namespace Run

section

variable {α β : Type}

def outcome (run : Run α) (machine : Machine) : Except Stop α :=
  (run.run.run machine).1

def after (run : Run α) (machine : Machine) : Machine :=
  (run.run.run machine).2

def Ends (value : α → Prop) (stop : Stop → Prop) : Except Stop α → Prop
  | .ok found => value found
  | .error signal => stop signal

/-- On scopes with the property, the run leaves such scopes and ends as given. -/
def Keeps (held : Scopes → Prop) (value : α → Prop) (stop : Stop → Prop) (run : Run α) : Prop :=
  ∀ machine, held machine.scopes →
    held (run.after machine).scopes ∧ Ends value stop (run.outcome machine)

variable {held : Scopes → Prop} {value : α → Prop} {result : β → Prop} {stop : Stop → Prop}

/-! ### Single steps -/

theorem Keeps.pure {found : α} (isValue : value found) :
    Keeps held value stop (Pure.pure found) :=
  fun _ holds => ⟨holds, isValue⟩

theorem Keeps.throw {signal : Stop} (stops : stop signal) :
    Keeps held value stop (throw signal) :=
  fun _ holds => ⟨holds, stops⟩

theorem Keeps.fail {cause : Fault} (stops : stop (.fault cause)) :
    Keeps held value stop (fail cause) :=
  Keeps.throw stops

theorem Keeps.ofExcept {computed : Except Fault α}
    (values : ∀ found, computed = .ok found → value found)
    (faults : ∀ cause, computed = .error cause → stop (.fault cause)) :
    Keeps held value stop (ofExcept computed) := by
  cases computed with
  | ok found => exact Keeps.pure (values found rfl)
  | error cause => exact Keeps.fail (faults cause rfl)

/-- A look at the machine. -/
theorem Keeps.read {next : Machine → Run β}
    (keeps : ∀ machine, held machine.scopes → Keeps held result stop (next machine)) :
    Keeps held result stop (get >>= next) :=
  fun machine holds => keeps machine holds machine holds

theorem Keeps.set {machine : Machine} (holds : held machine.scopes) :
    Keeps held (fun _ => True) stop (set machine : Run Unit) :=
  fun _ _ => ⟨holds, trivial⟩

theorem Keeps.modify {change : Machine → Machine}
    (keeps : ∀ machine, held machine.scopes → held (change machine).scopes) :
    Keeps held (fun _ => True) stop (modify change : Run Unit) :=
  fun machine holds => ⟨keeps machine holds, trivial⟩

theorem Keeps.mono {other : α → Prop} {others : Stop → Prop} {run : Run α}
    (keeps : Keeps held value stop run) (values : ∀ found, value found → other found)
    (stops : ∀ signal, stop signal → others signal) : Keeps held other others run := by
  intro machine holds
  obtain ⟨holdsAfter, ends⟩ := keeps machine holds
  refine ⟨holdsAfter, ?_⟩
  cases ended : run.outcome machine with
  | ok found =>
      rw [ended] at ends
      exact values found ends
  | error signal =>
      rw [ended] at ends
      exact stops signal ends

/-! How a sequence runs. These hold of every state and every reason to stop. -/

theorem run_bind_ok {ε σ : Type} {first : ExceptT ε (StateM σ) α} {state middle : σ} {found : α}
    (ran : first.run.run state = (.ok found, middle)) (next : α → ExceptT ε (StateM σ) β) :
    (first >>= next).run.run state = (next found).run.run middle := by
  change (ExceptT.bindCont next (first.run.run state).1).run (first.run.run state).2 = _
  rw [ran]
  rfl

theorem run_bind_error {ε σ : Type} {first : ExceptT ε (StateM σ) α} {state middle : σ} {signal : ε}
    (ran : first.run.run state = (.error signal, middle)) (next : α → ExceptT ε (StateM σ) β) :
    (first >>= next).run.run state = (.error signal, middle) := by
  change (ExceptT.bindCont next (first.run.run state).1).run (first.run.run state).2 = _
  rw [ran]
  rfl

theorem run_get_bind {ε σ : Type} (next : σ → ExceptT ε (StateM σ) β) (state : σ) :
    (get >>= next).run.run state = (next state).run.run state :=
  rfl

theorem Keeps.bind {first : Run α} {next : α → Run β} (keepsFirst : Keeps held value stop first)
    (keepsNext : ∀ found, value found → Keeps held result stop (next found)) :
    Keeps held result stop (first >>= next) := by
  intro machine holds
  have firstEnds := keepsFirst machine holds
  cases ran : first.run.run machine with
  | mk ended middle =>
      rw [after, outcome, ran] at firstEnds
      cases ended with
      | ok found =>
          have nextEnds := keepsNext found firstEnds.2 middle firstEnds.1
          rw [after, outcome] at nextEnds ⊢
          rw [run_bind_ok ran]
          exact nextEnds
      | error signal =>
          rw [after, outcome, run_bind_error ran]
          exact firstEnds

/-- A run that changes no scope keeps every property of them. -/
theorem Keeps.of_unchanged {run : Run α}
    (keeps : ∀ scopes, Keeps (fun left => left = scopes) value stop run) :
    Keeps held value stop run := by
  intro machine holds
  obtain ⟨same, ends⟩ := keeps machine.scopes machine rfl
  rw [same]
  exact ⟨holds, ends⟩

theorem Keeps.discard {run : Run α} (keeps : Keeps held value stop run) :
    Keeps held (fun _ => True) stop (discard run) :=
  keeps.bind fun _ _ => Keeps.pure trivial

/-! ### Lists -/

theorem Keeps.mapM {step : α → Run β} (items : List α)
    (keeps : ∀ item ∈ items, Keeps held result stop (step item)) :
    Keeps held (fun found => ∀ one ∈ found, result one) stop (items.mapM step) := by
  induction items with
  | nil => exact Keeps.pure (List.forall_mem_nil _)
  | cons item rest ih =>
      rw [List.mapM_cons]
      apply (keeps item List.mem_cons_self).bind
      intro first isFirst
      apply (ih fun other member => keeps other (List.mem_cons_of_mem item member)).bind
      intro others areOthers
      exact Keeps.pure (List.forall_mem_cons.mpr ⟨isFirst, areOthers⟩)

theorem Keeps.forM {step : α → Run Unit} (items : List α)
    (keeps : ∀ item ∈ items, Keeps held (fun _ => True) stop (step item)) :
    Keeps held (fun _ => True) stop (items.forM step) := by
  induction items with
  | nil => exact Keeps.pure trivial
  | cons item rest ih =>
      apply (keeps item List.mem_cons_self).bind
      intro _ _
      exact ih fun other member => keeps other (List.mem_cons_of_mem item member)

/-! ### Scopes -/

theorem run_inScope (entries : Entries Value) (body : Run α) (machine : Machine) :
    (inScope entries body).run.run machine =
      (body.run.run { machine with scopes := entries :: machine.scopes }).map id
        fun left => { left with scopes := left.scopes.drop 1 } := rfl

theorem Keeps.inScope {inner : Scopes → Prop} {entries : Entries Value} {body : Run α}
    (enters : ∀ scopes, held scopes → inner (entries :: scopes))
    (exits : ∀ scopes, inner scopes → held (scopes.drop 1)) (keeps : Keeps inner value stop body) :
    Keeps held value stop (inScope entries body) := by
  intro machine holds
  have ends := keeps { machine with scopes := entries :: machine.scopes }
    (enters machine.scopes holds)
  exact ⟨exits _ ends.1, ends.2⟩

theorem Keeps.assign {name : String} {found : Value}
    (keeps : ∀ scopes, held scopes → held (assigned name found scopes)) :
    Keeps held (fun _ => True) stop (assign name found) :=
  Keeps.modify fun machine => keeps machine.scopes

theorem Keeps.newIdentity : Keeps held (fun _ => True) stop newIdentity :=
  fun _ holds => ⟨holds, trivial⟩

theorem run_lookup_some {name : String} {machine : Machine} {found : Value}
    (known : find? name machine.scopes = some found) :
    (lookup name).run.run machine = (.ok found, machine) := by
  rw [lookup, run_get_bind, known]
  rfl

theorem run_lookup_none {name : String} {machine : Machine}
    (unknown : find? name machine.scopes = none) :
    (lookup name).run.run machine = (.error (.fault (.undefinedVariable name)), machine) := by
  rw [lookup, run_get_bind, unknown]
  rfl

/-- The value of a variable is one that the scopes hold. -/
theorem Keeps.lookup {values : Value → Prop} {name : String}
    (finds : ∀ scopes, held scopes → ∀ found, find? name scopes = some found → values found)
    (unknown : stop (.fault (.undefinedVariable name))) : Keeps held values stop (lookup name) := by
  apply Keeps.read
  intro machine holds
  cases found : find? name machine.scopes with
  | some one => exact Keeps.pure (finds machine.scopes holds one found)
  | none => exact Keeps.fail unknown

theorem Keeps.lookupGlobal {name : String} (unknown : stop (.fault (.undefinedVariable name))) :
    Keeps held (fun _ => True) stop (lookupGlobal name) := by
  apply Keeps.read
  intro machine _
  cases Entries.get? name machine.globals with
  | some one => exact Keeps.pure trivial
  | none => exact Keeps.fail unknown

/-! ### Services

They touch the console only. What stops them is an interrupt or a fault of the values. -/

private theorem Keeps.write (text : Content) : Keeps held (fun _ => True) stop (write text) :=
  Keeps.modify fun _ holds => holds

theorem Keeps.printLine [Limits] (values : List Value)
    (failures : ∀ signal, signal.isOrdinary = true → stop signal) :
    Keeps held (fun _ => True) stop (printLine values) := by
  have written : Keeps held (fun _ => True) stop (values.forM printValue) := by
    apply Keeps.forM
    intro one _
    have shown : Keeps held (fun _ => True) stop (Run.ofExcept one.shown) :=
      Keeps.ofExcept (fun _ _ => trivial) fun cause failed =>
        failures _ (Stop.isOrdinary_fault (one.sparesTree_shown cause failed))
    exact shown.bind fun text _ => Keeps.write _
  exact written.bind fun _ _ => Keeps.write _

private theorem Keeps.readLine (failures : ∀ signal, signal.isOrdinary = true → stop signal) :
    Keeps held (fun _ => True) stop readLine := by
  apply Keeps.read
  intro machine holds
  cases machine.console.input with
  | nil => exact Keeps.fail (failures _ rfl)
  | cons line rest =>
      have taken : Keeps held (fun _ => True) stop
          (MonadStateOf.set { machine with console.input := rest } : Run Unit) := Keeps.set holds
      apply taken.bind
      intro _ _
      cases line with
      | some text => exact Keeps.pure trivial
      | none => exact Keeps.throw (failures _ rfl)

private theorem Keeps.sleep (length : Value)
    (failures : ∀ signal, signal.isOrdinary = true → stop signal) :
    Keeps held (fun _ => True) stop (sleep length) := by
  have measured : Keeps held (fun _ => True) stop (Run.ofExcept (sleepLength length)) :=
    Keeps.ofExcept (fun _ _ => trivial) fun cause failed =>
      failures _ (Stop.isOrdinary_fault (sparesTree_sleepLength length cause failed))
  exact measured.bind fun seconds _ => Keeps.modify fun _ holds => holds

/-- A service gives back an argument or a plain value. -/
theorem Keeps.perform [Limits] {values : Value → Prop} (service : Service) {arguments : List Value}
    (plain : ∀ found : Value, found.isPlain = true → values found)
    (given : ∀ argument ∈ arguments, values argument)
    (failures : ∀ signal, signal.isOrdinary = true → stop signal) :
    Keeps held values stop (perform service arguments) := by
  cases service with
  | print =>
      exact (Keeps.printLine arguments failures).bind fun _ _ => Keeps.pure (plain _ rfl)
  | range =>
      rcases arguments with _ | ⟨one, _ | ⟨second, rest⟩⟩
      · exact Keeps.fail (failures _ rfl)
      · exact Keeps.pure (given one List.mem_cons_self)
      · exact Keeps.fail (failures _ rfl)
  | readLine => exact (Keeps.readLine failures).bind fun text _ => Keeps.pure (plain _ rfl)
  | clock =>
      have looked : Keeps held (fun _ => True) stop time :=
        fun _ holds => ⟨holds, trivial⟩
      exact looked.bind fun now _ => Keeps.pure (plain _ rfl)
  | sleep => exact (Keeps.sleep _ failures).bind fun _ _ => Keeps.pure (plain _ rfl)

theorem Keeps.printWith [Limits] (printer : Value) (arguments : List Value)
    (failures : ∀ signal, signal.isOrdinary = true → stop signal) :
    Keeps held (fun _ => True) stop (printWith printer arguments) := by
  cases printer with
  | service identity offered =>
      have performed : Keeps held (fun _ => True) stop (Run.perform offered arguments) :=
        Keeps.perform offered (fun _ _ => trivial) (fun _ _ => trivial) failures
      exact performed.discard
  | _ => exact Keeps.fail (failures _ rfl)

theorem Keeps.load (library : String)
    (keeps : ∀ name ∈ ["time_time", "time_sleep"], ∀ found scopes, Value.isPlain found = true →
      held scopes → held (assigned name found scopes)) :
    Keeps held (fun _ => True) stop (load library) := by
  obtain ⟨keepsClock, keepsSleep⟩ := List.forall_mem_cons.mp keeps
  unfold Run.load
  split
  · apply Keeps.newIdentity.bind
    intro clock _
    have first : Keeps held (fun _ => True) stop (Run.assign "time_time" (.service clock .clock)) :=
      Keeps.assign fun scopes holds => keepsClock _ scopes rfl holds
    apply first.bind
    intro _ _
    apply Keeps.newIdentity.bind
    intro sleep _
    exact Keeps.assign fun scopes holds =>
      keepsSleep "time_sleep" List.mem_cons_self _ scopes rfl holds
  · exact Keeps.pure trivial

/-! ### Control -/

theorem Keeps.chooseArm {test : Expr → Run Value} {run : Block → Run Unit} {otherwise : Block}
    (arms : List (Expr × Block))
    (tests : ∀ arm ∈ arms, Keeps held (fun _ => True) stop (test arm.1))
    (runs : ∀ arm ∈ arms, Keeps held (fun _ => True) stop (run arm.2))
    (last : Keeps held (fun _ => True) stop (run otherwise)) :
    Keeps held (fun _ => True) stop (chooseArm test run otherwise arms) := by
  induction arms with
  | nil => exact last
  | cons arm rest ih =>
      obtain ⟨condition, body⟩ := arm
      apply (tests _ List.mem_cons_self).bind
      intro found _
      split
      · exact runs _ List.mem_cons_self
      · exact ih (fun other member => tests other (List.mem_cons_of_mem _ member))
          fun other member => runs other (List.mem_cons_of_mem _ member)

def loopEnd : Except Stop Unit → Except Stop Bool
  | .ok () | .error .next => .ok true
  | .error .leave => .ok false
  | .error signal => .error signal

theorem loopEnd_eq_false {ended : Except Stop Unit} (ends : loopEnd ended = .ok false) :
    ended = .error .leave := by
  cases ended with
  | ok _ => cases ends
  | error signal =>
      cases signal with
      | leave => rfl
      | _ => cases ends

theorem loopEnd_eq_error {ended : Except Stop Unit} {signal : Stop}
    (ends : loopEnd ended = .error signal) :
    ended = .error signal ∧ signal ≠ .leave ∧ signal ≠ .next := by
  cases ended with
  | ok _ => cases ends
  | error other =>
      cases other with
      | leave | next => cases ends
      | _ =>
          cases ends
          exact ⟨rfl, Stop.noConfusion, Stop.noConfusion⟩

private theorem run_round_cases (entries : Entries Value) (body : Run Unit) (machine : Machine) :
    (round entries body).run.run machine =
      match (inScope entries body).run.run machine with
      | (.ok (), left) => (.ok true, left)
      | (.error .next, left) => (.ok true, left)
      | (.error .leave, left) => (.ok false, left)
      | (.error signal, left) => (.error signal, left) := rfl

/-- A round ends as the end of its body says, and leaves the machine that the body leaves. -/
theorem run_round (entries : Entries Value) (body : Run Unit) (machine : Machine) :
    (round entries body).run.run machine =
      (loopEnd ((inScope entries body).outcome machine), (inScope entries body).after machine) := by
  rw [run_round_cases, outcome, after]
  cases (inScope entries body).run.run machine with
  | mk ended left =>
      cases ended with
      | ok _ => rfl
      | error signal => cases signal <;> rfl

theorem outcome_round (entries : Entries Value) (body : Run Unit) (machine : Machine) :
    (round entries body).outcome machine = loopEnd ((inScope entries body).outcome machine) :=
  congrArg Prod.fst (run_round entries body machine)

/-- A round takes the two signals of loops and passes the others on. -/
theorem Keeps.round {inner : Scopes → Prop} {signals : Stop → Prop} {entries : Entries Value}
    {body : Run Unit} (enters : ∀ scopes, held scopes → inner (entries :: scopes))
    (exits : ∀ scopes, inner scopes → held (scopes.drop 1))
    (passes : ∀ signal, signals signal → signal ≠ .leave → signal ≠ .next → stop signal)
    (keeps : Keeps inner (fun _ => True) signals body) :
    Keeps held (fun _ => True) stop (round entries body) := by
  intro machine holds
  obtain ⟨holdsAfter, ends⟩ := Keeps.inScope enters exits keeps machine holds
  rw [Run.after, Run.outcome, run_round]
  refine ⟨holdsAfter, ?_⟩
  cases ended : (Run.inScope entries body).outcome machine with
  | ok _ => exact trivial
  | error signal =>
      rw [ended] at ends
      cases signal with
      | leave => exact trivial
      | next => exact trivial
      | _ => exact passes _ ends Stop.noConfusion Stop.noConfusion

def callEnd : Except Stop Unit → Except Stop Value
  | .ok () => .ok .none
  | .error (.result value) => .ok value
  | .error signal => .error signal

theorem callEnd_eq_error {ended : Except Stop Unit} {signal : Stop}
    (ends : callEnd ended = .error signal) : ended = .error signal := by
  cases ended with
  | ok _ => cases ends
  | error other => cases other <;> cases ends <;> rfl

private theorem run_returning_cases (body : Run Unit) (machine : Machine) :
    (returning body).run.run machine =
      match body.run.run machine with
      | (.ok (), left) => (.ok .none, left)
      | (.error (.result found), left) => (.ok found, left)
      | (.error signal, left) => (.error signal, left) := rfl

/-- A function ends as the end of its body says, and leaves the machine that the body leaves. -/
theorem run_returning (body : Run Unit) (machine : Machine) :
    (returning body).run.run machine = (callEnd (body.outcome machine), body.after machine) := by
  rw [run_returning_cases, outcome, after]
  cases body.run.run machine with
  | mk ended left =>
      cases ended with
      | ok _ => rfl
      | error signal => cases signal <;> rfl

theorem outcome_returning (body : Run Unit) (machine : Machine) :
    (returning body).outcome machine = callEnd (body.outcome machine) :=
  congrArg Prod.fst (run_returning body machine)

/-- A function takes the signal with its value and passes the others on. -/
theorem Keeps.returning {values : Value → Prop} {signals : Stop → Prop} {body : Run Unit}
    (nothing : values .none) (results : ∀ found, signals (.result found) → values found)
    (passes : ∀ signal, signals signal → (∀ found, signal ≠ .result found) → stop signal)
    (keeps : Keeps held (fun _ => True) signals body) :
    Keeps held values stop (returning body) := by
  intro machine holds
  obtain ⟨holdsAfter, ends⟩ := keeps machine holds
  rw [Run.after, Run.outcome, run_returning]
  refine ⟨holdsAfter, ?_⟩
  cases ended : body.outcome machine with
  | ok _ => exact nothing
  | error signal =>
      rw [ended] at ends
      cases signal with
      | result found => exact results found ends
      | _ => exact passes _ ends fun _ => Stop.noConfusion

theorem Keeps.countUp {body : Nat → Run Bool} (left start : Nat)
    (keeps : ∀ index, Keeps held (fun _ => True) stop (body index)) :
    Keeps held (fun _ => True) stop (countUp body start left) := by
  induction left generalizing start with
  | zero => exact Keeps.pure trivial
  | succ left ih =>
      apply (keeps start).bind
      intro goesOn _
      split
      · exact ih (start + 1)
      · exact Keeps.pure trivial

theorem Keeps.whileTrue {condition : Run Value} {body : Run Bool} (left : Nat)
    (unfinished : stop .unfinished) (tests : Keeps held (fun _ => True) stop condition)
    (keeps : Keeps held (fun _ => True) stop body) :
    Keeps held (fun _ => True) stop (whileTrue condition body left) := by
  induction left with
  | zero => exact Keeps.throw unfinished
  | succ left ih =>
      apply tests.bind
      intro found _
      split
      · apply keeps.bind
        intro goesOn _
        split
        · exact ih
        · exact Keeps.pure trivial
      · exact Keeps.pure trivial

variable [Limits]

theorem Keeps.operate {values : Value → Prop} {operator : Operator} {left right : Value}
    (applies : ∀ found, operator.apply left right = .ok found → values found)
    (plain : ∀ found : Value, found.isPlain = true → values found)
    (faults : ∀ cause, operator.apply left right = .error cause → stop (.fault cause)) :
    Keeps held values stop (operate operator left right) := by
  have distinguished : ∀ found, values found → Keeps held values stop (distinguish found) := by
    intro found isFound
    unfold distinguish
    split
    · exact Keeps.newIdentity.bind fun identity _ => Keeps.pure (plain _ rfl)
    · exact Keeps.pure isFound
  apply (Keeps.ofExcept applies faults).bind
  intro found isFound
  split
  · exact Keeps.pure isFound
  · exact Keeps.pure isFound
  · exact distinguished found isFound

/-- A call runs the body of a function or performs a service. -/
theorem Keeps.callNamed {values : Value → Prop} {run : Stmt → Run Unit} {name : String}
    {callee : Value} {arguments : List Value}
    (functions : ∀ identity parameters body, callee = .function identity parameters body →
      Keeps held values stop (Run.inScope (Entries.ofPairs (parameters.zip arguments))
        (Run.returning (runBlock run body))))
    (plain : ∀ found : Value, found.isPlain = true → values found)
    (given : ∀ argument ∈ arguments, values argument)
    (failures : ∀ signal, signal.isOrdinary = true → stop signal) :
    Keeps held values stop (callNamed run name callee arguments) := by
  cases callee with
  | function identity parameters body => exact functions identity parameters body rfl
  | service identity offered => exact Keeps.perform offered plain given failures
  | _ => exact Keeps.fail (failures _ rfl)

end

end Run

end IndentScript
