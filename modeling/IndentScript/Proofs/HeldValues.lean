import IndentScript.Proofs.Runs

/-!
What scopes hold. A property of all held values is kept by setting a variable to a value that has
it, and a variable that is found has it.

Functions and tables are made by definitions only: an operator gives back one of its operands or a
plain value, and one that does not choose gives a bare value.
-/

namespace IndentScript

/-! ### Values of scopes -/

namespace Entries

variable {α : Type}

theorem mem_of_get? {name : String} {entries : Entries α} {value : α}
    (found : get? name entries = some value) : (name, value) ∈ entries := by
  induction entries with
  | nil => cases found
  | cons head rest ih =>
      obtain ⟨key, held⟩ := head
      rw [get?] at found
      split at found
      · rename_i same
        cases found
        rw [same]
        exact List.mem_cons_self
      · exact List.mem_cons_of_mem _ (ih found)

theorem forall_mem_set {property : String × α → Prop} {entries : Entries α} {name : String}
    {value : α} (all : ∀ entry ∈ entries, property entry) (new : property (name, value)) :
    ∀ entry ∈ set name value entries, property entry := by
  induction entries with
  | nil => exact List.forall_mem_singleton.mpr new
  | cons head rest ih =>
      obtain ⟨key, held⟩ := head
      obtain ⟨first, others⟩ := List.forall_mem_cons.mp all
      rw [set]
      split
      · rename_i same
        rw [same]
        exact List.forall_mem_cons.mpr ⟨new, others⟩
      · exact List.forall_mem_cons.mpr ⟨first, ih others⟩

theorem forall_mem_ofPairs {property : String × α → Prop} {pairs : List (String × α)}
    (all : ∀ pair ∈ pairs, property pair) : ∀ entry ∈ ofPairs pairs, property entry := by
  have folded : ∀ before : Entries α, (∀ entry ∈ before, property entry) →
      ∀ entry ∈ pairs.foldl (fun entries pair => set pair.1 pair.2 entries) before,
        property entry := by
    induction pairs with
    | nil => exact fun before allBefore => allBefore
    | cons pair rest ih =>
        obtain ⟨first, others⟩ := List.forall_mem_cons.mp all
        intro before allBefore
        exact ih others _ (forall_mem_set allBefore first)
  exact folded [] (List.forall_mem_nil _)

end Entries

namespace Run

def Holds (values : Value → Prop) (scopes : Scopes) : Prop :=
  ∀ scope ∈ scopes, ∀ entry ∈ scope, values entry.2

variable {values : Value → Prop} {scopes : Scopes}

theorem Holds.cons {entries : Entries Value} (holds : Holds values scopes)
    (all : ∀ entry ∈ entries, values entry.2) : Holds values (entries :: scopes) :=
  List.forall_mem_cons.mpr ⟨all, holds⟩

theorem Holds.drop (holds : Holds values scopes) (count : Nat) :
    Holds values (scopes.drop count) :=
  fun scope member => holds scope (List.mem_of_mem_drop member)

theorem Holds.assigned (holds : Holds values scopes) (name : String) {value : Value}
    (isValue : values value) : Holds values (assigned name value scopes) := by
  cases scopes with
  | nil => exact holds
  | cons scope outer =>
      obtain ⟨first, others⟩ := List.forall_mem_cons.mp holds
      exact List.forall_mem_cons.mpr ⟨Entries.forall_mem_set first isValue, others⟩

theorem Holds.find? (holds : Holds values scopes) {name : String} {value : Value}
    (found : find? name scopes = some value) : values value := by
  obtain ⟨scope, member, inScope⟩ := List.exists_of_findSome?_eq_some found
  exact holds scope member _ (Entries.mem_of_get? inScope)

end Run

/-! ### Values of operators -/

namespace Value

/-- A value without an identity, unless it is a float that is not a number. -/
def isBare : Value → Bool
  | .table _ _ | .function _ _ _ | .service _ _ => false
  | _ => true

theorem isPlain_of_isBare {value : Value} (bare : value.isBare = true) : value.isPlain = true := by
  cases value with
  | table | function | service => cases bare
  | _ => rfl

def IsBare (computed : Except Fault Value) : Prop :=
  ∀ value, computed = .ok value → value.isBare = true

theorem isBare_ok {value : Value} (bare : value.isBare = true) : IsBare (.ok value) := by
  intro found same
  cases same
  exact bare

theorem isBare_error (fault : Fault) : IsBare (.error fault) := by
  intro found same
  cases same

theorem isBare_map {α : Type} {make : α → Value} (bare : ∀ one, (make one).isBare = true)
    (computed : Except Fault α) : IsBare (computed.map make) := by
  cases computed with
  | ok one => exact isBare_ok (bare one)
  | error fault => exact isBare_error fault

theorem isBare_combine {wholes : Int → Int → Except Fault Value}
    {reals : Number.Binary64 → Number.Binary64 → Except Fault Value}
    (bareWholes : ∀ left right, IsBare (wholes left right))
    (bareReals : ∀ left right, IsBare (reals left right)) (left right : Quantity) :
    IsBare (combine wholes reals left right) := by
  have floats : ∀ one other : Except Fault Number.Binary64,
      IsBare (do let leftFloat ← one; let rightFloat ← other; reals leftFloat rightFloat) := by
    intro one other
    cases one with
    | error fault => exact isBare_error fault
    | ok leftFloat =>
        cases other with
        | error fault => exact isBare_error fault
        | ok rightFloat => exact bareReals leftFloat rightFloat
  cases left with
  | whole leftWhole =>
      cases right with
      | whole rightWhole => exact bareWholes leftWhole rightWhole
      | real rightReal => exact floats _ _
  | real leftReal => exact floats _ _

theorem isBare_onNumbers (operator : String)
    {operation : Quantity → Quantity → Except Fault Value}
    (bare : ∀ left right, IsBare (operation left right)) (left right : Value) :
    IsBare (onNumbers operator operation left right) := by
  unfold onNumbers
  split
  · exact bare _ _
  · exact isBare_error _

theorem isBare_repeatBy (content : Content) (count : Value) :
    IsBare (repeatBy content count) := by
  unfold repeatBy
  split
  · exact isBare_map (fun _ => rfl) _
  · exact isBare_error _

theorem isBare_add (left right : Value) : IsBare (left.add right) := by
  unfold add
  split
  · exact isBare_ok rfl
  · exact isBare_error _
  · exact isBare_onNumbers "+" (isBare_combine (fun _ _ => isBare_ok rfl)
      fun _ _ => isBare_ok rfl) _ _

theorem isBare_sub (left right : Value) : IsBare (left.sub right) :=
  isBare_onNumbers "-" (isBare_combine (fun _ _ => isBare_ok rfl) fun _ _ => isBare_ok rfl) _ _

theorem isBare_mul (left right : Value) : IsBare (left.mul right) := by
  unfold mul
  split
  · exact isBare_repeatBy _ _
  · exact isBare_repeatBy _ _
  · exact isBare_onNumbers "*" (isBare_combine (fun _ _ => isBare_ok rfl)
      fun _ _ => isBare_ok rfl) _ _

theorem isBare_div (left right : Value) : IsBare (left.div right) := by
  apply isBare_onNumbers "/"
  apply isBare_combine
  · intro one other
    unfold divideIntegers
    split
    · exact isBare_error _
    · exact isBare_map (fun _ => rfl) _
  · intro one other
    split
    · exact isBare_error _
    · exact isBare_ok rfl

theorem isBare_mod (left right : Value) : IsBare (left.mod right) := by
  apply isBare_onNumbers "%"
  apply isBare_combine
  · intro one other
    split
    · exact isBare_error _
    · exact isBare_ok rfl
  · intro one other
    split
    · exact isBare_error _
    · exact isBare_ok rfl

end Value

variable [Limits]

/-- An operator that chooses no operand makes a bare value. -/
theorem Operator.isBare_apply {operator : Operator} (notAnd : operator ≠ .and) (notOr : operator ≠ .or)
    (left right : Value) : Value.IsBare (operator.apply left right) := by
  cases operator with
  | plus => exact Value.isBare_add left right
  | minus => exact Value.isBare_sub left right
  | times => exact Value.isBare_mul left right
  | divide => exact Value.isBare_div left right
  | percent =>
      cases left with
      | text template => exact Value.isBare_map (fun _ => rfl) _
      | _ => exact Value.isBare_mod _ right
  | equals => exact Value.isBare_map (fun _ => rfl) _
  | greater => exact Value.isBare_map (fun _ => rfl) _
  | less => exact Value.isBare_map (fun _ => rfl) _
  | and => exact absurd rfl notAnd
  | or => exact absurd rfl notOr
  | unknown name => exact Value.isBare_error _

/-- An operator chooses an operand or makes a plain value. -/
theorem Operator.apply_eq_ok {operator : Operator} {left right value : Value}
    (applied : operator.apply left right = .ok value) :
    value = left ∨ value = right ∨ value.isPlain = true := by
  have made : operator ≠ .and → operator ≠ .or →
      value = left ∨ value = right ∨ value.isPlain = true :=
    fun notAnd notOr =>
      .inr (.inr (Value.isPlain_of_isBare (isBare_apply notAnd notOr left right value applied)))
  cases operator with
  | and =>
      by_cases holds : left.isTrue = true
      · rw [apply, if_pos holds] at applied
        cases applied
        exact .inr (.inl rfl)
      · rw [apply, if_neg holds] at applied
        cases applied
        exact .inl rfl
  | or =>
      by_cases holds : left.isTrue = true
      · rw [apply, if_pos holds] at applied
        cases applied
        exact .inl rfl
      · rw [apply, if_neg holds] at applied
        cases applied
        exact .inr (.inl rfl)
  | _ => exact made Operator.noConfusion Operator.noConfusion

end IndentScript
