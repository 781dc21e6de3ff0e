import IndentScript.Proofs.Renaming

/-!
Texts of values with other identities. The text of a function or of a service shows a place in memory,
which comes from its identity; nothing else in a text does. So whether a value has a text does not
depend on identities, and what an operator computes does so only where a template shows such a place.
-/

namespace IndentScript

section

variable {rename : Nat → Nat}

namespace Value

/-! ### Texts -/

mutual

/-- The identities that the text of a value shows as places in memory. -/
def shownIdentities : Value → List Nat
  | .table _ entries => shownInFields entries
  | .function identity _ _ => [identity]
  | .service identity _ => [identity]
  | _ => []

def shownInFields : List (String × Value) → List Nat
  | [] => []
  | (_, value) :: rest => value.shownIdentities ++ shownInFields rest

end

theorem text_renamed (number : Number.Binary64) : (number.renamed rename).text = number.text := by
  cases number <;> rfl

mutual

theorem quotedWithin_renamed {value : Value} (fixed : Fixed rename value.shownIdentities)
    (depth : Nat) : quotedWithin (value.renamed rename) depth = quotedWithin value depth := by
  cases value with
  | float number => exact congrArg Except.ok (text_renamed number)
  | table identity entries =>
      cases depth with
      | zero => rfl
      | succ depth => rw [renamed, quotedWithin, quotedEntries_renamed fixed depth, quotedWithin]
  | function identity parameters body =>
      rw [renamed, quotedWithin, quotedWithin, (fixed_cons.mp fixed).1]
  | service identity offered => rw [renamed, quotedWithin, quotedWithin, (fixed_cons.mp fixed).1]
  | _ => rfl

theorem quotedEntries_renamed {entries : List (String × Value)}
    (fixed : Fixed rename (shownInFields entries)) (depth : Nat) :
    quotedEntries (renamedFields rename entries) depth = quotedEntries entries depth := by
  cases entries with
  | nil => rfl
  | cons entry rest =>
      obtain ⟨name, value⟩ := entry
      obtain ⟨first, others⟩ := fixed_append.mp fixed
      rw [renamedFields, quotedEntries, quotedEntries, quotedWithin_renamed first depth,
        quotedEntries_renamed others depth]

end

theorem quoted_renamed [Limits] {value : Value} (fixed : Fixed rename value.shownIdentities) :
    (value.renamed rename).quoted = value.quoted :=
  quotedWithin_renamed fixed nestingLimit

theorem eq_text_of_dataType {value : Value} (isText : value.dataType = .text) :
    ∃ content, value = text content := by
  cases value with
  | text content => exact ⟨content, rfl⟩
  | service identity offered => cases offered <;> cases isText
  | _ => cases isText

variable [Limits]

theorem shown_eq_quoted {value : Value} (notText : value.dataType ≠ .text) :
    value.shown = value.quoted.map .plain := by
  cases value with
  | text content => exact absurd rfl notText
  | _ => rfl

theorem shown_renamed {value : Value} (fixed : Fixed rename value.shownIdentities) :
    (value.renamed rename).shown = value.shown := by
  by_cases isText : value.dataType = .text
  · obtain ⟨content, rfl⟩ := eq_text_of_dataType isText
    rfl
  · have isTextNeither : (value.renamed rename).dataType ≠ .text := by rwa [dataType_renamed]
    rw [shown_eq_quoted isTextNeither, shown_eq_quoted isText, quoted_renamed fixed]

end Value

/-! Whether a value has a text at all does not depend on its identities. -/

/-- Both computations end with values that are alike, or both with the same fault. -/
inductive Agree {ε α : Type} (alike : α → α → Prop) : Except ε α → Except ε α → Prop where
  | ok {one other : α} : alike one other → Agree alike (.ok one) (.ok other)
  | error (fault : ε) : Agree alike (.error fault) (.error fault)

namespace Agree

variable {ε δ α β : Type} {alike : α → α → Prop} {alikeNext : β → β → Prop}

theorem of_eq {one other : Except ε α} (same : one = other) : Agree Eq one other := by
  subst same
  cases one with
  | ok found => exact .ok rfl
  | error fault => exact .error fault

theorem eq {one other : Except ε α} (agree : Agree Eq one other) : one = other := by
  cases agree with
  | ok same => rw [same]
  | error fault => rfl

theorem bind {one other : Except ε α} {next nextOther : α → Except ε β} (agree : Agree alike one other)
    (agreeNext : ∀ found also, alike found also → Agree alikeNext (next found) (nextOther also)) :
    Agree alikeNext (one >>= next) (other >>= nextOther) := by
  cases agree with
  | ok same => exact agreeNext _ _ same
  | error fault => exact .error fault

theorem mapError {one other : Except ε α} (agree : Agree alike one other) (change : ε → δ) :
    Agree alike (one.mapError change) (other.mapError change) := by
  cases agree with
  | ok same => exact .ok same
  | error fault => exact .error (change fault)

end Agree

namespace Value

mutual

theorem agree_quotedWithin (value : Value) (depth : Nat) :
    Agree (fun _ _ => True) (quotedWithin (value.renamed rename) depth) (quotedWithin value depth) := by
  cases value with
  | int number =>
      rw [renamed]
      cases quotedWithin (int number) depth with
      | ok text => exact .ok trivial
      | error fault => exact .error fault
  | table identity entries =>
      cases depth with
      | zero => exact .error _
      | succ depth =>
          rw [renamed, quotedWithin, quotedWithin]
          exact (agree_quotedEntries entries depth).bind fun _ _ _ => .ok trivial
  | _ => exact .ok trivial

theorem agree_quotedEntries (entries : List (String × Value)) (depth : Nat) :
    Agree (fun _ _ => True) (quotedEntries (renamedFields rename entries) depth)
      (quotedEntries entries depth) := by
  cases entries with
  | nil => exact .ok trivial
  | cons entry rest =>
      obtain ⟨name, value⟩ := entry
      rw [renamedFields, quotedEntries, quotedEntries]
      exact (agree_quotedWithin value depth).bind fun _ _ _ =>
        (agree_quotedEntries rest depth).bind fun _ _ _ => .ok trivial

end

theorem agree_shown [Limits] (value : Value) :
    Agree (fun _ _ => True) (value.renamed rename).shown value.shown := by
  -- a text stands for itself, and everything else for its quoted form
  by_cases isText : value.dataType = .text
  · obtain ⟨content, rfl⟩ := eq_text_of_dataType isText
    exact .ok trivial
  · have isTextNeither : (value.renamed rename).dataType ≠ .text := by rwa [dataType_renamed]
    rw [shown_eq_quoted isTextNeither, shown_eq_quoted isText]
    have quoted : Agree (fun _ _ => True) (value.renamed rename).quoted value.quoted :=
      agree_quotedWithin value nestingLimit
    generalize (value.renamed rename).quoted = one at quoted ⊢
    generalize value.quoted = other at quoted ⊢
    cases quoted with
    | ok same => exact .ok trivial
    | error fault => exact .error fault

end Value

/-! ### Templates -/

namespace Template

open Value (renamedFields shownInFields)

theorem integerOf_renamed (letter : Char) (value : Value) :
    integerOf letter (value.renamed rename) = integerOf letter value := by
  cases value with
  | float number => cases number <;> rfl
  | _ => rfl

theorem single_renamed (value : Value) : single (value.renamed rename) = single value := by
  cases value <;> rfl

theorem inBase_renamed (base : Nat) (letter : Char) (flags : Flags) (precision : Option Nat)
    (value : Value) : inBase base letter flags precision (value.renamed rename) =
      inBase base letter flags precision value := by
  rw [inBase, inBase, Value.integer?_renamed, Value.dataType_renamed]

theorem real_renamed (letter : Char) (flags : Flags) (precision : Option Nat) (value : Value) :
    real letter flags precision (value.renamed rename) = real letter flags precision value := by
  cases value with
  | float number => cases number <;> rfl
  | _ => rfl

theorem convert_renamed [Limits] {value : Value} (fixed : Fixed rename value.shownIdentities)
    (conversion : Conversion) (flags : Flags) (precision : Option Nat) :
    convert conversion flags precision (value.renamed rename) =
      convert conversion flags precision value := by
  cases conversion with
  | shown => rw [convert, convert, Value.shown_renamed fixed]
  | quoted => rw [convert, convert, Value.quoted_renamed fixed]
  | escaped => rw [convert, convert, Value.quoted_renamed fixed]
  | single => rw [convert, convert, single_renamed]
  | decimal letter => rw [convert, convert, decimal, decimal, integerOf_renamed]
  | octal => rw [convert, convert, inBase_renamed]
  | hexadecimal letter => rw [convert, convert, inBase_renamed]
  | real letter => rw [convert, convert, real_renamed]

/-- The values have the same text: one has other identities than the other, but none that is shown. -/
structure LooksLike (rename : Nat → Nat) (value other : Value) : Prop where
  renamed : other = value.renamed rename
  shown : Fixed rename value.shownIdentities

structure Supply.LooksLike (rename : Nat → Nat) (supply other : Supply) : Prop where
  argument : Template.LooksLike rename supply.argument other.argument
  fields : other.fields = supply.fields.map (renamedFields rename)
  shown : ∀ entries, supply.fields = some entries → Fixed rename (shownInFields entries)
  taken : other.taken = supply.taken

variable {supply other : Supply}

theorem Supply.looksLike_ofValue {value other : Value} (alike : Template.LooksLike rename value other) :
    Supply.LooksLike rename (.ofValue value) (.ofValue other) := by
  obtain ⟨rfl, shown⟩ := alike
  cases value with
  | table identity entries =>
      refine ⟨⟨rfl, shown⟩, rfl, ?_, rfl⟩
      rintro _ ⟨rfl⟩
      exact shown
  | _ => exact ⟨⟨rfl, shown⟩, rfl, by rintro _ ⟨⟩, rfl⟩

theorem Supply.LooksLike.agree_take (alike : supply.LooksLike rename other) :
    Agree (fun one two => Template.LooksLike rename one.1 two.1 ∧
      Supply.LooksLike rename one.2 two.2) supply.take other.take := by
  rw [Supply.take, Supply.take, alike.taken]
  cases supply.taken with
  | true => exact .error _
  | false => exact .ok ⟨alike.argument, alike.argument, alike.fields, alike.shown, rfl⟩

theorem fixed_of_get? {name : String} {entries : Entries Value} {value : Value}
    (fixed : Fixed rename (shownInFields entries)) (found : Entries.get? name entries = some value) :
    Fixed rename value.shownIdentities := by
  induction entries with
  | nil => cases found
  | cons entry rest ih =>
      obtain ⟨key, held⟩ := entry
      obtain ⟨first, others⟩ := fixed_append.mp fixed
      rw [Entries.get?] at found
      by_cases same : key = name
      · rw [if_pos same] at found
        cases found
        exact first
      · rw [if_neg same] at found
        exact ih others found

theorem Supply.LooksLike.agree_select (alike : supply.LooksLike rename other) (key : Key) :
    Agree (Supply.LooksLike rename) (supply.select key) (other.select key) := by
  have fields := alike.fields
  cases key with
  | absent => exact .ok alike
  | unclosed =>
      unfold Supply.select
      rw [fields]
      cases supply.fields with
      | none => exact .error _
      | some entries => exact .error _
  | named name =>
      unfold Supply.select
      rw [fields]
      cases held : supply.fields with
      | none => exact .error _
      | some entries =>
          have looked : (name.plain?.bind fun text => Entries.get? text (renamedFields rename entries)) =
              (name.plain?.bind fun text => Entries.get? text entries).map (Value.renamed rename) := by
            cases name.plain? with
            | none => rfl
            | some text => exact Value.get?_renamedFields text entries
          dsimp only [Option.map_some]
          rw [looked]
          cases found : name.plain?.bind fun text => Entries.get? text entries with
          | none => exact .error _
          | some value =>
              obtain ⟨text, _, among⟩ := Option.bind_eq_some_iff.mp found
              refine .ok ⟨⟨rfl, fixed_of_get? (alike.shown entries held) among⟩, rfl, ?_, rfl⟩
              rintro _ ⟨rfl⟩
              exact alike.shown entries held

theorem Supply.LooksLike.agree_takeInteger (alike : supply.LooksLike rename other) :
    Agree (fun one two => one.1 = two.1 ∧ Supply.LooksLike rename one.2 two.2) supply.takeInteger
      other.takeInteger := by
  apply alike.agree_take.bind
  rintro ⟨value, rest⟩ ⟨also, otherRest⟩ ⟨⟨rfl, _⟩, alikeRest⟩
  dsimp only
  rw [Value.integer?_renamed]
  cases value.integer? with
  | none => exact .error _
  | some size => exact .ok ⟨rfl, alikeRest⟩

theorem Supply.LooksLike.agree_width (alike : supply.LooksLike rename other) (measure : Measure) :
    Agree (fun one two => one.1 = two.1 ∧ one.2.1 = two.2.1 ∧
      Supply.LooksLike rename one.2.2 two.2.2) (supply.width measure) (other.width measure) := by
  cases measure with
  | unset => exact .ok ⟨rfl, rfl, alike⟩
  | fixed size =>
      rw [Supply.width, Supply.width]
      split
      · exact .error _
      · exact .ok ⟨rfl, rfl, alike⟩
  | fromArgument =>
      apply alike.agree_takeInteger.bind
      rintro ⟨size, rest⟩ ⟨_, otherRest⟩ ⟨rfl, alikeRest⟩
      dsimp only
      split
      · exact .error _
      · exact .ok ⟨rfl, rfl, alikeRest⟩

theorem Supply.LooksLike.agree_precision (alike : supply.LooksLike rename other) (measure : Measure) :
    Agree (fun one two => one.1 = two.1 ∧ Supply.LooksLike rename one.2 two.2)
      (supply.precision measure) (other.precision measure) := by
  cases measure with
  | unset => exact .ok ⟨rfl, alike⟩
  | fixed size =>
      rw [Supply.precision, Supply.precision]
      split
      · exact .error _
      · exact .ok ⟨rfl, alike⟩
  | fromArgument =>
      apply alike.agree_takeInteger.bind
      rintro ⟨size, rest⟩ ⟨_, otherRest⟩ ⟨rfl, alikeRest⟩
      dsimp only
      split
      · exact .error _
      · exact .ok ⟨rfl, alikeRest⟩

variable [Limits]

theorem agree_fillDirective (alike : supply.LooksLike rename other) (template : List CodePoint)
    (written : Directive) :
    Agree (fun one two => one.1 = two.1 ∧ Supply.LooksLike rename one.2 two.2)
      (fillDirective template written supply) (fillDirective template written other) := by
  unfold fillDirective
  apply ((alike.agree_select written.key).mapError Fault.template).bind
  intro selected otherSelected alikeSelected
  apply ((alikeSelected.agree_width written.width).mapError Fault.template).bind
  rintro ⟨width, leftAligned, afterWidth⟩ ⟨_, _, otherAfterWidth⟩ ⟨rfl, rfl, alikeWidth⟩
  apply ((alikeWidth.agree_precision written.precision).mapError Fault.template).bind
  rintro ⟨precision, afterPrecision⟩ ⟨_, otherAfterPrecision⟩ ⟨rfl, alikePrecision⟩
  cases written.ending with
  | none => exact .error _
  | some ending =>
      apply (alikePrecision.agree_take.mapError Fault.template).bind
      rintro ⟨value, rest⟩ ⟨_, otherRest⟩ ⟨⟨rfl, shown⟩, alikeRest⟩
      dsimp only
      cases Conversion.of? ending.point with
      | none => exact .error _
      | some conversion =>
          dsimp only
          rw [convert_renamed shown]
          apply (Agree.of_eq rfl).bind
          rintro converted _ rfl
          split
          · exact .error _
          · exact .ok ⟨rfl, alikeRest⟩

theorem fillPieces_of_looksLike (template : List CodePoint) (pieces : List Piece)
    (alike : supply.LooksLike rename other) :
    fillPieces template pieces other = fillPieces template pieces supply := by
  induction pieces generalizing supply other with
  | nil => rw [fillPieces, fillPieces, alike.taken, alike.fields, Option.isSome_map]
  | cons piece rest ih =>
      cases piece with
      | literal content => rw [fillPieces, fillPieces, ih alike]
      | directive written =>
          rw [fillPieces, fillPieces]
          apply Eq.symm
          apply Agree.eq
          apply (agree_fillDirective alike template written).bind
          rintro ⟨filled, left⟩ ⟨_, otherLeft⟩ ⟨rfl, alikeLeft⟩
          dsimp only
          rw [ih alikeLeft]
          exact .of_eq rfl

end Template

theorem fillTemplate_renamed [Limits] (template : Content) {value : Value}
    (fixed : Fixed rename value.shownIdentities) :
    fillTemplate template (value.renamed rename) = fillTemplate template value := by
  have alike := Template.Supply.looksLike_ofValue (⟨rfl, fixed⟩ : Template.LooksLike rename value _)
  rw [fillTemplate, fillTemplate, Template.fillPieces_of_looksLike _ _ alike]

/-! ### Operators -/

/-- An operator that chooses no operand does not depend on identities, unless it is a template that
shows some of them. -/
theorem Operator.apply_renamed [Limits] (injective : Function.Injective rename) {operator : Operator}
    (notAnd : operator ≠ .and) (notOr : operator ≠ .or) {left right : Value}
    (unseen : ∀ template, operator = .percent → left = .text template →
      Fixed rename right.shownIdentities) :
    operator.apply (left.renamed rename) (right.renamed rename) = operator.apply left right := by
  cases operator with
  | plus => exact left.add_renamed right
  | minus => exact left.sub_renamed right
  | times => exact left.mul_renamed right
  | divide => exact left.div_renamed right
  | percent =>
      have remainders : (left.renamed rename).mod (right.renamed rename) = left.mod right :=
        left.mod_renamed right
      cases left with
      | text template =>
          exact congrArg (Except.map Value.text) (fillTemplate_renamed template (unseen template rfl rfl))
      | _ => exact remainders
  | equals => exact congrArg (Except.map Value.bool) (Value.equalsWithin_renamed injective left right _)
  | greater => exact congrArg (Except.map Value.bool) (left.isOrdered_renamed ">" .gt right)
  | less => exact congrArg (Except.map Value.bool) (left.isOrdered_renamed "<" .lt right)
  | and => exact absurd rfl notAnd
  | or => exact absurd rfl notOr
  | unknown name => rfl

theorem Run.sleepLength_renamed (value : Value) :
    sleepLength (value.renamed rename) = sleepLength value := by
  cases value with
  | float number => cases number <;> rfl
  | _ => rfl

end

end IndentScript
