import IndentScript.Value.Text

/-!
Which values have a text. Only two things stand in the way of one: an integer with too many digits
and tables that nest too deep. Either may lie anywhere in the value.
-/

namespace IndentScript

namespace Value

mutual

def integers : Value → List Int
  | int value => [value]
  | table _ entries => integersInFields entries
  | _ => []

def integersInFields : List (String × Value) → List Int
  | [] => []
  | (_, value) :: rest => value.integers ++ integersInFields rest

end

mutual

def height : Value → Nat
  | table _ entries => heightOfFields entries + 1
  | _ => 0

def heightOfFields : List (String × Value) → Nat
  | [] => 0
  | (_, value) :: rest => max value.height (heightOfFields rest)

end

/-- No integer of the value is too long to be written, and its tables nest within the limit. -/
structure Legible [Limits] (value : Value) : Prop where
  short : ∀ number ∈ value.integers, number.natAbs < Nat.pow 10 Number.digitLimit
  shallow : value.height ≤ nestingLimit

theorem integerText_of_lt {number : Int} (short : number.natAbs < Nat.pow 10 Number.digitLimit) :
    ∃ text, integerText number = .ok text := by
  rw [integerText, Number.writeInteger, if_neg (by omega)]
  exact ⟨_, rfl⟩

theorem integerText_of_le {number : Int} (long : Nat.pow 10 Number.digitLimit ≤ number.natAbs) :
    integerText number = .error (.numeral .tooLongToWrite) := by
  rw [integerText, Number.writeInteger, if_pos long]
  rfl

mutual

theorem short_of_quotedWithin {value : Value} {depth : Nat} {text : String}
    (written : value.quotedWithin depth = .ok text) :
    (∀ number ∈ value.integers, number.natAbs < Nat.pow 10 Number.digitLimit) ∧
      value.height ≤ depth := by
  cases value with
  | int number =>
      refine ⟨?_, Nat.zero_le depth⟩
      intro found among
      obtain rfl : found = number := List.mem_singleton.mp among
      rcases Nat.lt_or_ge found.natAbs (Nat.pow 10 Number.digitLimit) with short | long
      · exact short
      · rw [quotedWithin, integerText_of_le long] at written
        cases written
  | table identity entries =>
      cases depth with
      | zero => cases written
      | succ depth =>
          cases fields : quotedEntries entries depth with
          | error cause =>
              rw [quotedWithin, fields] at written
              cases written
          | ok texts =>
              obtain ⟨short, shallow⟩ := short_of_quotedEntries fields
              exact ⟨short, Nat.succ_le_succ shallow⟩
  | _ => simp [integers, height]

theorem short_of_quotedEntries {entries : List (String × Value)} {depth : Nat} {texts : List String}
    (written : quotedEntries entries depth = .ok texts) :
    (∀ number ∈ integersInFields entries, number.natAbs < Nat.pow 10 Number.digitLimit) ∧
      heightOfFields entries ≤ depth := by
  cases entries with
  | nil => simp [integersInFields, heightOfFields]
  | cons entry rest =>
      obtain ⟨name, value⟩ := entry
      rw [quotedEntries] at written
      cases first : value.quotedWithin depth with
      | error cause =>
          rw [first] at written
          cases written
      | ok text =>
          cases others : quotedEntries rest depth with
          | error cause =>
              rw [first, others] at written
              cases written
          | ok texts =>
              obtain ⟨short, shallow⟩ := short_of_quotedWithin first
              obtain ⟨shortRest, shallowRest⟩ := short_of_quotedEntries others
              constructor
              · intro number among
                rcases List.mem_append.mp among with inValue | inRest
                · exact short number inValue
                · exact shortRest number inRest
              · simp only [heightOfFields]
                omega

end

/-- What keeps a value from being written within a depth. -/
inductive Bars (integers : List Int) (height depth : Nat) : Fault → Prop where
  | long {number : Int} : number ∈ integers → Nat.pow 10 Number.digitLimit ≤ number.natAbs →
    Bars integers height depth (.numeral .tooLongToWrite)
  | deep : depth < height → Bars integers height depth .tooDeep

theorem Bars.mono {integers more : List Int} {height higher depth next : Nat} {cause : Fault}
    (bars : Bars integers height depth cause) (among : ∀ number ∈ integers, number ∈ more)
    (above : depth < height → next < higher) : Bars more higher next cause := by
  cases bars with
  | long inside long => exact .long (among _ inside) long
  | deep deep => exact .deep (above deep)

mutual

theorem bars_of_quotedWithin {value : Value} {depth : Nat} {cause : Fault}
    (failed : value.quotedWithin depth = .error cause) :
    Bars value.integers value.height depth cause := by
  cases value with
  | int number =>
      by_cases long : Nat.pow 10 Number.digitLimit ≤ number.natAbs
      · rw [quotedWithin, integerText_of_le long] at failed
        cases failed
        exact .long List.mem_cons_self long
      · obtain ⟨text, written⟩ := integerText_of_lt (Nat.lt_of_not_le long)
        rw [quotedWithin, written] at failed
        cases failed
  | table identity entries =>
      cases depth with
      | zero =>
          cases failed
          exact .deep (Nat.succ_pos _)
      | succ depth =>
          cases written : quotedEntries entries depth with
          | ok fields =>
              rw [quotedWithin, written] at failed
              cases failed
          | error found =>
              rw [quotedWithin, written] at failed
              cases failed
              exact (bars_of_quotedEntries written).mono (fun _ inside => inside) (by
                simp only [height]
                omega)
  | _ => cases failed

theorem bars_of_quotedEntries {entries : List (String × Value)} {depth : Nat} {cause : Fault}
    (failed : quotedEntries entries depth = .error cause) :
    Bars (integersInFields entries) (heightOfFields entries) depth cause := by
  cases entries with
  | nil => cases failed
  | cons entry rest =>
      obtain ⟨name, value⟩ := entry
      simp only [integersInFields, heightOfFields]
      rw [quotedEntries] at failed
      cases written : value.quotedWithin depth with
      | error found =>
          rw [written] at failed
          cases failed
          exact (bars_of_quotedWithin written).mono (by simp_all) (by omega)
      | ok text =>
          cases writtenRest : quotedEntries rest depth with
          | error found =>
              rw [written, writtenRest] at failed
              cases failed
              exact (bars_of_quotedEntries writtenRest).mono (by simp_all) (by omega)
          | ok others =>
              rw [written, writtenRest] at failed
              cases failed

end

/-! ### Legible values -/

variable [Limits]

theorem text_or_shown_eq (value : Value) :
    (∃ content, value = .text content) ∨ value.shown = value.quoted.map .plain := by
  cases value with
  | text content => exact .inl ⟨content, rfl⟩
  | _ => exact .inr rfl

theorem legible_of_shown {value : Value} {content : Content} (written : value.shown = .ok content) :
    value.Legible := by
  rcases text_or_shown_eq value with ⟨content, rfl⟩ | quotes
  · exact ⟨by simp [integers], Nat.zero_le _⟩
  · cases quoted : value.quoted with
    | ok text =>
        obtain ⟨short, shallow⟩ := short_of_quotedWithin quoted
        exact ⟨short, shallow⟩
    | error cause =>
        rw [quotes, quoted] at written
        cases written

theorem bars_of_shown {value : Value} {cause : Fault} (failed : value.shown = .error cause) :
    Bars value.integers value.height nestingLimit cause := by
  rcases text_or_shown_eq value with ⟨content, rfl⟩ | quotes
  · cases failed
  · cases quoted : value.quoted with
    | ok text =>
        rw [quotes, quoted] at failed
        cases failed
    | error found =>
        rw [quotes, quoted] at failed
        cases failed
        exact bars_of_quotedWithin quoted

theorem exists_shown_iff {value : Value} : (∃ content, value.shown = .ok content) ↔ value.Legible := by
  constructor
  · rintro ⟨content, written⟩
    exact legible_of_shown written
  · rintro ⟨short, shallow⟩
    cases shown : value.shown with
    | ok content => exact ⟨content, rfl⟩
    | error cause =>
        cases bars_of_shown shown with
        | long among long => exact absurd long (Nat.not_le.mpr (short _ among))
        | deep deep => omega

end Value

end IndentScript
