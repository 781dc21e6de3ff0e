import IndentScript.Machine
import IndentScript.Value.Operation

/-!
What operations on values can be at fault for. Some faults blame the tree of a program: it has a node
or an operator that the language does not have. No operation on values has such a fault, and no
operator of the language has one, whatever its operands are.
-/

namespace IndentScript

/-- The fault blames the tree of a program and no value. -/
def Fault.blamesTree : Fault → Bool
  | .unknownOperator _ | .unknownExpression _ | .missingPart _ _ => true
  | _ => false

def SparesTree {α : Type} (computed : Except Fault α) : Prop :=
  ∀ cause, computed = .error cause → cause.blamesTree = false

namespace SparesTree

variable {α β ε : Type}

theorem ok (value : α) : SparesTree (.ok value) := by
  intro cause same
  cases same

theorem error {cause : Fault} (spares : cause.blamesTree = false) :
    SparesTree (.error cause : Except Fault α) := by
  intro found same
  cases same
  exact spares

theorem bind {first : Except Fault α} {next : α → Except Fault β} (spares : SparesTree first)
    (sparesNext : ∀ value, SparesTree (next value)) : SparesTree (first >>= next) := by
  cases first with
  | ok value => exact sparesNext value
  | error cause => exact error (spares cause rfl)

theorem map {computed : Except Fault α} (spares : SparesTree computed) (make : α → β) :
    SparesTree (computed.map make) := by
  cases computed with
  | ok value => exact ok (make value)
  | error cause => exact error (spares cause rfl)

theorem mapError {make : ε → Fault} (spares : ∀ fault, (make fault).blamesTree = false)
    (computed : Except ε α) : SparesTree (computed.mapError make) := by
  cases computed with
  | ok value => exact ok value
  | error fault => exact error (spares fault)

end SparesTree

/-! ### Texts of values -/

namespace Value

theorem sparesTree_integerText (value : Int) : SparesTree (integerText value) :=
  .mapError (fun _ => rfl) _

mutual

theorem sparesTree_quotedWithin (value : Value) (depth : Nat) :
    SparesTree (value.quotedWithin depth) := by
  cases value with
  | int value => exact sparesTree_integerText value
  | table identity entries =>
      cases depth with
      | zero => exact .error rfl
      | succ depth => exact (sparesTree_quotedEntries entries depth).bind fun _ => .ok _
  | _ => exact .ok _

theorem sparesTree_quotedEntries (entries : List (String × Value)) (depth : Nat) :
    SparesTree (quotedEntries entries depth) := by
  cases entries with
  | nil => exact .ok _
  | cons entry rest =>
      obtain ⟨name, value⟩ := entry
      apply (sparesTree_quotedWithin value depth).bind
      intro shown
      exact (sparesTree_quotedEntries rest depth).bind fun _ => .ok _

end

theorem sparesTree_quoted [Limits] (value : Value) : SparesTree value.quoted :=
  sparesTree_quotedWithin value nestingLimit

theorem sparesTree_shown [Limits] (value : Value) : SparesTree value.shown := by
  unfold shown
  split
  · exact .ok _
  · exact (sparesTree_quoted value).map _

/-! ### Arithmetic -/

theorem sparesTree_finite {fault : Fault} (spares : fault.blamesTree = false)
    (value : Number.Binary64) : SparesTree (finite fault value) := by
  cases value with
  | infinite negative => exact .error spares
  | _ => exact .ok _

theorem sparesTree_toFloat (number : Quantity) : SparesTree number.toFloat := by
  cases number with
  | whole value =>
      rw [Quantity.toFloat, floatOfInt]
      exact sparesTree_finite rfl _
  | real value => exact .ok value

theorem sparesTree_combine {wholes : Int → Int → Except Fault Value}
    {reals : Number.Binary64 → Number.Binary64 → Except Fault Value}
    (sparesWholes : ∀ left right, SparesTree (wholes left right))
    (sparesReals : ∀ left right, SparesTree (reals left right)) (left right : Quantity) :
    SparesTree (combine wholes reals left right) := by
  have floats : SparesTree (do
      let leftFloat ← left.toFloat
      let rightFloat ← right.toFloat
      reals leftFloat rightFloat) := by
    apply (sparesTree_toFloat left).bind
    intro leftFloat
    exact (sparesTree_toFloat right).bind fun rightFloat => sparesReals leftFloat rightFloat
  cases left with
  | real leftReal => exact floats
  | whole leftWhole =>
      cases right with
      | whole rightWhole => exact sparesWholes leftWhole rightWhole
      | real rightReal => exact floats

theorem sparesTree_onNumbers (operator : String)
    {operation : Quantity → Quantity → Except Fault Value}
    (spares : ∀ left right, SparesTree (operation left right)) (left right : Value) :
    SparesTree (onNumbers operator operation left right) := by
  unfold onNumbers
  split
  · exact spares _ _
  · exact .error rfl

theorem sparesTree_repeatBy (content : Content) (count : Value) :
    SparesTree (repeatBy content count) := by
  have repeated : ∀ times, SparesTree (repeatText content times) := by
    intro times
    unfold repeatText
    repeat' split
    all_goals first | exact .error rfl | exact .ok _
  unfold repeatBy
  split
  · exact (repeated _).map _
  · exact .error rfl

theorem sparesTree_add (left right : Value) : SparesTree (left.add right) := by
  unfold add
  split
  · exact .ok _
  · exact .error rfl
  · exact sparesTree_onNumbers _ (sparesTree_combine (fun _ _ => .ok _) fun _ _ => .ok _) _ _

theorem sparesTree_sub (left right : Value) : SparesTree (left.sub right) :=
  sparesTree_onNumbers _ (sparesTree_combine (fun _ _ => .ok _) fun _ _ => .ok _) _ _

theorem sparesTree_mul (left right : Value) : SparesTree (left.mul right) := by
  unfold mul
  split
  · exact sparesTree_repeatBy _ _
  · exact sparesTree_repeatBy _ _
  · exact sparesTree_onNumbers _ (sparesTree_combine (fun _ _ => .ok _) fun _ _ => .ok _) _ _

theorem sparesTree_div (left right : Value) : SparesTree (left.div right) := by
  apply sparesTree_onNumbers
  apply sparesTree_combine
  · intro one other
    unfold divideIntegers
    split
    · exact .error rfl
    · exact (sparesTree_finite rfl _).map _
  · intro one other
    split
    · exact .error rfl
    · exact .ok _

theorem sparesTree_mod (left right : Value) : SparesTree (left.mod right) := by
  apply sparesTree_onNumbers
  apply sparesTree_combine
  · intro one other
    split
    · exact .error rfl
    · exact .ok _
  · intro one other
    split
    · exact .error rfl
    · exact .ok _

/-! ### Comparison -/

mutual

theorem sparesTree_equalsWithin (left right : Value) (depth : Nat) :
    SparesTree (left.equalsWithin right depth) := by
  unfold equalsWithin
  split
  · exact .error rfl
  · split
    · exact sparesTree_entriesEqual _ _ _
    · exact .ok _
  · exact .ok _

theorem sparesTree_entriesEqual (entries others : List (String × Value)) (depth : Nat) :
    SparesTree (entriesEqual entries others depth) := by
  cases entries with
  | nil => exact .ok _
  | cons entry rest =>
      obtain ⟨name, value⟩ := entry
      rw [entriesEqual]
      split
      · exact .ok _
      · rename_i other _
        have finish : ∀ same : Bool,
            SparesTree (if same then entriesEqual rest others depth else pure false) := by
          intro same
          split
          · exact sparesTree_entriesEqual rest others depth
          · exact .ok _
        dsimp only
        split
        · exact finish true
        · exact (sparesTree_equalsWithin value other depth).bind finish

end

theorem sparesTree_isOrdered (left : Value) (operator : String) (wanted : Ordering)
    (right : Value) : SparesTree (left.isOrdered operator wanted right) := by
  unfold isOrdered
  split
  · exact .ok _
  · split
    · exact .ok _
    · exact .error rfl

end Value

/-! ### Templates -/

namespace Template

theorem sparesTree_decimal (letter : Char) (precision : Option Nat) (value : Value) :
    SparesTree (decimal letter precision value) := by
  apply (SparesTree.mapError (fun _ => rfl) _).bind
  intro whole
  apply (SparesTree.mapError (fun _ => rfl) _).bind
  intro _
  exact (SparesTree.mapError (fun _ => rfl) _).bind fun digits => .ok _

theorem sparesTree_real (letter : Char) (flags : Flags) (precision : Option Nat) (value : Value) :
    SparesTree (real letter flags precision value) := by
  unfold real
  cases value.quantity? with
  | some number => exact (Value.sparesTree_toFloat number).bind fun _ => .ok _
  | none => exact .error rfl

variable [Limits]

theorem sparesTree_convert (conversion : Conversion) (flags : Flags) (precision : Option Nat)
    (value : Value) : SparesTree (convert conversion flags precision value) := by
  cases conversion with
  | shown => exact (Value.sparesTree_shown value).bind fun _ => .ok _
  | quoted => exact (Value.sparesTree_quoted value).bind fun _ => .ok _
  | escaped => exact (Value.sparesTree_quoted value).bind fun _ => .ok _
  | single => exact (SparesTree.mapError (fun _ => rfl) _).bind fun _ => .ok _
  | decimal letter => exact sparesTree_decimal letter precision value
  | octal => exact .mapError (fun _ => rfl) _
  | hexadecimal letter => exact .mapError (fun _ => rfl) _
  | real letter => exact sparesTree_real letter flags precision value

theorem sparesTree_fillDirective (template : List CodePoint) (written : Directive)
    (supply : Supply) : SparesTree (fillDirective template written supply) := by
  apply (SparesTree.mapError (fun _ => rfl) _).bind
  intro selected
  apply (SparesTree.mapError (fun _ => rfl) _).bind
  rintro ⟨width, leftAligned, afterWidth⟩
  apply (SparesTree.mapError (fun _ => rfl) _).bind
  rintro ⟨precision, afterPrecision⟩
  dsimp only
  cases written.ending with
  | none => exact .error rfl
  | some ending =>
      apply (SparesTree.mapError (fun _ => rfl) _).bind
      rintro ⟨value, rest⟩
      dsimp only
      cases Conversion.of? ending.point with
      | none => exact .error rfl
      | some conversion =>
          apply (sparesTree_convert conversion _ precision value).bind
          intro converted
          split
          · exact .error rfl
          · exact .ok _

theorem sparesTree_fillPieces (template : List CodePoint) (pieces : List Piece) (supply : Supply) :
    SparesTree (fillPieces template pieces supply) := by
  induction pieces generalizing supply with
  | nil =>
      rw [fillPieces]
      split
      · exact .ok _
      · exact .error rfl
  | cons piece others ih =>
      cases piece with
      | literal content => exact (ih supply).bind fun _ => .ok _
      | directive written =>
          apply (sparesTree_fillDirective template written supply).bind
          rintro ⟨filled, left⟩
          exact (ih left).bind fun _ => .ok _

end Template

/-! ### Operators and services -/

/-- An operator of the language is at fault for its operands only. -/
theorem Operator.sparesTree_apply [Limits] {operator : Operator} (known : operator ∈ all)
    (left right : Value) : SparesTree (operator.apply left right) := by
  cases operator with
  | plus => exact Value.sparesTree_add left right
  | minus => exact Value.sparesTree_sub left right
  | times => exact Value.sparesTree_mul left right
  | divide => exact Value.sparesTree_div left right
  | percent =>
      cases left with
      | text template =>
          exact ((Template.sparesTree_fillPieces _ _ _).bind fun _ => .ok _).map _
      | _ => exact Value.sparesTree_mod _ right
  | equals => exact (Value.sparesTree_equalsWithin left right _).map _
  | greater => exact (Value.sparesTree_isOrdered left _ _ right).map _
  | less => exact (Value.sparesTree_isOrdered left _ _ right).map _
  | and => exact .ok _
  | or => exact .ok _
  | unknown name => simp [all] at known

theorem Run.sparesTree_sleepLength (value : Value) : SparesTree (sleepLength value) := by
  unfold sleepLength
  split
  · exact .error rfl
  · dsimp only
    repeat' split
    all_goals first | exact .error rfl | exact .ok _
  · split
    · exact .error rfl
    · repeat' split
      all_goals first | exact .error rfl | exact .ok _

end IndentScript
