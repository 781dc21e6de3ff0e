import IndentScript.Proofs.Identities

/-!
Other identities in the place of those that were given. Arithmetic and order do not look at identities,
and what is equal does not depend on which identities the values have, as long as different ones stay
different.
-/

namespace IndentScript

/-! ### Renamed trees and values -/

def Number.Binary64.renamed (rename : Nat → Nat) : Number.Binary64 → Number.Binary64
  | .nan payload => .nan (rename payload)
  | .infinite negative => .infinite negative
  | .finite negative units => .finite negative units

mutual

def Literal.renamed (rename : Nat → Nat) : Literal → Literal
  | .none => .none
  | .bool value => .bool value
  | .int value => .int value
  | .float value => .float (value.renamed rename)
  | .text content => .text content
  | .table identity entries => .table (rename identity) (Literal.renamedFields rename entries)

def Literal.renamedFields (rename : Nat → Nat) : List (String × Literal) → List (String × Literal)
  | [] => []
  | (name, literal) :: rest => (name, literal.renamed rename) :: Literal.renamedFields rename rest

end

mutual

def Expr.renamed (rename : Nat → Nat) : Expr → Expr
  | .literal value => .literal (value.renamed rename)
  | .variable name => .variable name
  | .binary left operator right => .binary (left.renamed rename) operator (right.renamed rename)
  | .table entries => .table (Expr.renamedFields rename entries)
  | .call callee arguments => .call callee (Expr.renamedAll rename arguments)
  | .misplaced sort => .misplaced sort
  | .lacking sort part => .lacking sort part

def Expr.renamedFields (rename : Nat → Nat) : List (String × Expr) → List (String × Expr)
  | [] => []
  | (name, expression) :: rest => (name, expression.renamed rename) :: Expr.renamedFields rename rest

def Expr.renamedAll (rename : Nat → Nat) : List Expr → List Expr
  | [] => []
  | expression :: rest => expression.renamed rename :: Expr.renamedAll rename rest

end

mutual

def Stmt.renamed (rename : Nat → Nat) : Stmt → Stmt
  | .print arguments => .print (Expr.renamedAll rename arguments)
  | .assign name value => .assign name (value.renamed rename)
  | .branch condition body arms otherwise =>
    .branch (condition.renamed rename) (Stmt.renamedAll rename body) (Stmt.renamedArms rename arms)
      (Stmt.renamedOtherwise rename otherwise)
  | .count name limit body => .count name (limit.renamed rename) (Stmt.renamedAll rename body)
  | .loop condition body => .loop (condition.renamed rename) (Stmt.renamedAll rename body)
  | .leave => .leave
  | .next => .next
  | .define name parameters body => .define name parameters (Stmt.renamedAll rename body)
  | .result none => .result none
  | .result (some value) => .result (some (value.renamed rename))
  | .load library => .load library
  | .evaluate value => .evaluate (value.renamed rename)

def Stmt.renamedAll (rename : Nat → Nat) : List Stmt → List Stmt
  | [] => []
  | statement :: rest => statement.renamed rename :: Stmt.renamedAll rename rest

def Stmt.renamedArms (rename : Nat → Nat) : List (Expr × List Stmt) → List (Expr × List Stmt)
  | [] => []
  | (condition, body) :: rest =>
    (condition.renamed rename, Stmt.renamedAll rename body) :: Stmt.renamedArms rename rest

def Stmt.renamedOtherwise (rename : Nat → Nat) : Option (List Stmt) → Option (List Stmt)
  | none => none
  | some body => some (Stmt.renamedAll rename body)

end

mutual

def Value.renamed (rename : Nat → Nat) : Value → Value
  | .none => .none
  | .bool value => .bool value
  | .int value => .int value
  | .float value => .float (value.renamed rename)
  | .text content => .text content
  | .table identity entries => .table (rename identity) (Value.renamedFields rename entries)
  | .function identity parameters body =>
    .function (rename identity) parameters (Stmt.renamedAll rename body)
  | .service identity offered => .service (rename identity) offered

def Value.renamedFields (rename : Nat → Nat) : List (String × Value) → List (String × Value)
  | [] => []
  | (name, value) :: rest => (name, value.renamed rename) :: Value.renamedFields rename rest

end

/-! Identities that stay as they are. -/

abbrev Fixed (rename : Nat → Nat) (identities : List Nat) : Prop :=
  ∀ identity ∈ identities, rename identity = identity

section

variable {rename : Nat → Nat}

theorem fixed_cons {identity : Nat} {identities : List Nat} :
    Fixed rename (identity :: identities) ↔ rename identity = identity ∧ Fixed rename identities :=
  List.forall_mem_cons

theorem fixed_append {first second : List Nat} :
    Fixed rename (first ++ second) ↔ Fixed rename first ∧ Fixed rename second :=
  List.forall_mem_append

theorem Number.Binary64.renamed_of_fixed {number : Number.Binary64}
    (fixed : Fixed rename (Value.float number).identities) : number.renamed rename = number := by
  cases number with
  | nan payload => rw [renamed, (fixed_cons.mp fixed).1]
  | _ => rfl

mutual

theorem Literal.renamed_of_fixed {literal : Literal} (fixed : Fixed rename literal.identities) :
    literal.renamed rename = literal := by
  cases literal with
  | float number =>
      rw [Literal.renamed, Number.Binary64.renamed_of_fixed]
      cases number <;> exact fixed
  | table identity entries =>
      obtain ⟨own, inside⟩ := fixed_cons.mp fixed
      rw [Literal.renamed, own, Literal.renamedFields_of_fixed inside]
  | _ => rfl

theorem Literal.renamedFields_of_fixed {entries : List (String × Literal)}
    (fixed : Fixed rename (Literal.identitiesOfFields entries)) :
    Literal.renamedFields rename entries = entries := by
  cases entries with
  | nil => rfl
  | cons entry rest =>
      obtain ⟨first, others⟩ := fixed_append.mp fixed
      rw [Literal.renamedFields, Literal.renamed_of_fixed first, Literal.renamedFields_of_fixed others]

end

mutual

theorem Expr.renamed_of_fixed {expression : Expr} (fixed : Fixed rename expression.identities) :
    expression.renamed rename = expression := by
  cases expression with
  | literal value => rw [Expr.renamed, Literal.renamed_of_fixed fixed]
  | binary left operator right =>
      obtain ⟨inLeft, inRight⟩ := fixed_append.mp fixed
      rw [Expr.renamed, Expr.renamed_of_fixed inLeft, Expr.renamed_of_fixed inRight]
  | table entries => rw [Expr.renamed, Expr.renamedFields_of_fixed fixed]
  | call callee arguments => rw [Expr.renamed, Expr.renamedAll_of_fixed fixed]
  | _ => rfl

theorem Expr.renamedFields_of_fixed {entries : List (String × Expr)}
    (fixed : Fixed rename (Expr.identitiesOfFields entries)) :
    Expr.renamedFields rename entries = entries := by
  cases entries with
  | nil => rfl
  | cons entry rest =>
      obtain ⟨first, others⟩ := fixed_append.mp fixed
      rw [Expr.renamedFields, Expr.renamed_of_fixed first, Expr.renamedFields_of_fixed others]

theorem Expr.renamedAll_of_fixed {expressions : List Expr}
    (fixed : Fixed rename (Expr.identitiesOfAll expressions)) :
    Expr.renamedAll rename expressions = expressions := by
  cases expressions with
  | nil => rfl
  | cons expression rest =>
      obtain ⟨first, others⟩ := fixed_append.mp fixed
      rw [Expr.renamedAll, Expr.renamed_of_fixed first, Expr.renamedAll_of_fixed others]

end

mutual

theorem Stmt.renamed_of_fixed {statement : Stmt} (fixed : Fixed rename statement.identities) :
    statement.renamed rename = statement := by
  cases statement with
  | print arguments => rw [Stmt.renamed, Expr.renamedAll_of_fixed fixed]
  | assign name value => rw [Stmt.renamed, Expr.renamed_of_fixed fixed]
  | branch condition body arms otherwise =>
      obtain ⟨front, last⟩ := fixed_append.mp fixed
      obtain ⟨first, others⟩ := fixed_append.mp front
      obtain ⟨test, inBody⟩ := fixed_append.mp first
      rw [Stmt.renamed, Expr.renamed_of_fixed test, Stmt.renamedAll_of_fixed inBody,
        Stmt.renamedArms_of_fixed others, Stmt.renamedOtherwise_of_fixed last]
  | count name limit body =>
      obtain ⟨inLimit, inBody⟩ := fixed_append.mp fixed
      rw [Stmt.renamed, Expr.renamed_of_fixed inLimit, Stmt.renamedAll_of_fixed inBody]
  | loop condition body =>
      obtain ⟨test, inBody⟩ := fixed_append.mp fixed
      rw [Stmt.renamed, Expr.renamed_of_fixed test, Stmt.renamedAll_of_fixed inBody]
  | define name parameters body => rw [Stmt.renamed, Stmt.renamedAll_of_fixed fixed]
  | result value =>
      cases value with
      | none => rfl
      | some value => rw [Stmt.renamed, Expr.renamed_of_fixed fixed]
  | evaluate value => rw [Stmt.renamed, Expr.renamed_of_fixed fixed]
  | _ => rfl

theorem Stmt.renamedAll_of_fixed {block : List Stmt}
    (fixed : Fixed rename (Stmt.identitiesOfAll block)) : Stmt.renamedAll rename block = block := by
  cases block with
  | nil => rfl
  | cons statement rest =>
      obtain ⟨first, others⟩ := fixed_append.mp fixed
      rw [Stmt.renamedAll, Stmt.renamed_of_fixed first, Stmt.renamedAll_of_fixed others]

theorem Stmt.renamedArms_of_fixed {arms : List (Expr × List Stmt)}
    (fixed : Fixed rename (Stmt.identitiesOfArms arms)) : Stmt.renamedArms rename arms = arms := by
  cases arms with
  | nil => rfl
  | cons arm rest =>
      obtain ⟨first, others⟩ := fixed_append.mp fixed
      obtain ⟨test, inBody⟩ := fixed_append.mp first
      rw [Stmt.renamedArms, Expr.renamed_of_fixed test, Stmt.renamedAll_of_fixed inBody,
        Stmt.renamedArms_of_fixed others]

theorem Stmt.renamedOtherwise_of_fixed {otherwise : Option (List Stmt)}
    (fixed : Fixed rename (Stmt.identitiesOfOtherwise otherwise)) :
    Stmt.renamedOtherwise rename otherwise = otherwise := by
  cases otherwise with
  | none => rfl
  | some body => rw [Stmt.renamedOtherwise, Stmt.renamedAll_of_fixed fixed]

end

mutual

theorem Value.renamed_of_fixed {value : Value} (fixed : Fixed rename value.identities) :
    value.renamed rename = value := by
  cases value with
  | float number => rw [Value.renamed, Number.Binary64.renamed_of_fixed fixed]
  | table identity entries =>
      obtain ⟨own, inside⟩ := fixed_cons.mp fixed
      rw [Value.renamed, own, Value.renamedFields_of_fixed inside]
  | function identity parameters body =>
      obtain ⟨own, inside⟩ := fixed_cons.mp fixed
      rw [Value.renamed, own, Stmt.renamedAll_of_fixed inside]
  | service identity offered => rw [Value.renamed, (fixed_cons.mp fixed).1]
  | _ => rfl

theorem Value.renamedFields_of_fixed {entries : List (String × Value)}
    (fixed : Fixed rename (Value.identitiesOfFields entries)) :
    Value.renamedFields rename entries = entries := by
  cases entries with
  | nil => rfl
  | cons entry rest =>
      obtain ⟨first, others⟩ := fixed_append.mp fixed
      rw [Value.renamedFields, Value.renamed_of_fixed first, Value.renamedFields_of_fixed others]

end

mutual

theorem Value.ofLiteral_renamed (literal : Literal) :
    Value.ofLiteral (literal.renamed rename) = (Value.ofLiteral literal).renamed rename := by
  cases literal with
  | table identity entries =>
      rw [Literal.renamed, Value.ofLiteral, Value.ofLiteralEntries_renamed entries]
      rfl
  | _ => rfl

theorem Value.ofLiteralEntries_renamed (entries : List (String × Literal)) :
    Value.ofLiteralEntries (Literal.renamedFields rename entries) =
      Value.renamedFields rename (Value.ofLiteralEntries entries) := by
  cases entries with
  | nil => rfl
  | cons entry rest =>
      rw [Literal.renamedFields, Value.ofLiteralEntries, Value.ofLiteral_renamed entry.2,
        Value.ofLiteralEntries_renamed rest]
      rfl

end

/-! ### Numbers -/

namespace Number.Binary64

variable {other : Nat → Nat}

theorem isZero_renamed (number : Binary64) : (number.renamed rename).isZero = number.isZero := by
  cases number <;> rfl

theorem renamed_id (number : Binary64) : number.renamed id = number := by
  cases number <;> rfl

theorem add_renamed (left right : Binary64) :
    (left.renamed rename).add (right.renamed other) = left.add right := by
  cases left <;> cases right <;> rfl

theorem sub_renamed (left right : Binary64) :
    (left.renamed rename).sub (right.renamed other) = left.sub right := by
  cases left <;> cases right <;> rfl

theorem mul_renamed (left right : Binary64) :
    (left.renamed rename).mul (right.renamed other) = left.mul right := by
  cases left <;> cases right <;> rfl

theorem div_renamed (left right : Binary64) :
    (left.renamed rename).div (right.renamed other) = left.div right := by
  cases left <;> cases right <;> rfl

theorem floorRemainder_renamed (left right : Binary64) :
    (left.renamed rename).floorRemainder (right.renamed other) = left.floorRemainder right := by
  cases left <;> cases right <;> rfl

theorem order?_renamed (left right : Binary64) :
    (left.renamed rename).order? (right.renamed other) = left.order? right := by
  cases left <;> cases right <;> rfl

theorem orderInt?_renamed (number : Binary64) (whole : Int) :
    (number.renamed rename).orderInt? whole = number.orderInt? whole := by
  cases number <;> rfl

end Number.Binary64

namespace Value

def Quantity.renamed (rename : Nat → Nat) : Quantity → Quantity
  | whole value => whole value
  | real value => real (value.renamed rename)

theorem Quantity.order?_renamed (left right : Quantity) :
    (left.renamed rename).order? (right.renamed rename) = left.order? right := by
  cases left with
  | whole leftWhole =>
      cases right with
      | whole rightWhole => rfl
      | real rightReal => exact congrArg (Option.map Ordering.swap) (rightReal.orderInt?_renamed _)
  | real leftReal =>
      cases right with
      | whole rightWhole => exact leftReal.orderInt?_renamed _
      | real rightReal => exact leftReal.order?_renamed rightReal

theorem dataType_renamed (value : Value) : (value.renamed rename).dataType = value.dataType := by
  cases value <;> rfl

theorem integer?_renamed (value : Value) : (value.renamed rename).integer? = value.integer? := by
  cases value <;> rfl

theorem quantity?_renamed (value : Value) :
    (value.renamed rename).quantity? = value.quantity?.map (Quantity.renamed rename) := by
  cases value <;> rfl

theorem isTrue_renamed (value : Value) : (value.renamed rename).isTrue = value.isTrue := by
  cases value with
  | float number => exact congrArg Bool.not number.isZero_renamed
  | table identity entries => cases entries <;> rfl
  | _ => rfl

/-- An operation on floats that does not look at payloads. -/
theorem combine_renamed {wholes : Int → Int → Except Fault Value}
    {reals : Number.Binary64 → Number.Binary64 → Except Fault Value}
    (same : ∀ rename other left right, reals (left.renamed rename) (right.renamed other) =
      reals left right) (left right : Quantity) :
    combine wholes reals (left.renamed rename) (right.renamed rename) =
      combine wholes reals left right := by
  unfold combine
  cases left with
  | whole leftWhole =>
      cases right with
      | whole rightWhole => rfl
      | real rightReal =>
          dsimp only [Quantity.renamed, Quantity.toFloat]
          cases floatOfInt leftWhole with
          | error fault => rfl
          | ok number =>
              have shifted := same id rename number rightReal
              rw [number.renamed_id] at shifted
              exact shifted
  | real leftReal =>
      cases right with
      | whole rightWhole =>
          dsimp only [Quantity.renamed, Quantity.toFloat]
          cases floatOfInt rightWhole with
          | error fault => rfl
          | ok number =>
              have shifted := same rename id leftReal number
              rw [number.renamed_id] at shifted
              exact shifted
      | real rightReal => exact same rename rename leftReal rightReal

theorem onNumbers_renamed (operator : String)
    {operation : Quantity → Quantity → Except Fault Value}
    (same : ∀ left right, operation (left.renamed rename) (right.renamed rename) =
      operation left right) (left right : Value) :
    onNumbers operator operation (left.renamed rename) (right.renamed rename) =
      onNumbers operator operation left right := by
  rw [onNumbers, onNumbers, quantity?_renamed, quantity?_renamed, dataType_renamed, dataType_renamed]
  cases left.quantity? with
  | none => rfl
  | some leftNumber =>
      cases right.quantity? with
      | none => rfl
      | some rightNumber => exact same leftNumber rightNumber

theorem repeatBy_renamed (content : Content) (count : Value) :
    repeatBy content (count.renamed rename) = repeatBy content count := by
  rw [repeatBy, repeatBy, integer?_renamed, dataType_renamed]

theorem add_renamed (left right : Value) :
    (left.renamed rename).add (right.renamed rename) = left.add right := by
  have sums : ∀ left right : Quantity,
      addNumbers (left.renamed rename) (right.renamed rename) = addNumbers left right := by
    apply combine_renamed
    intro _ _ left right
    rw [left.add_renamed right]
  have numbers := onNumbers_renamed "+" sums left right
  cases left with
  | text content => cases right <;> rfl
  | _ => exact numbers

theorem sub_renamed (left right : Value) :
    (left.renamed rename).sub (right.renamed rename) = left.sub right := by
  apply onNumbers_renamed
  apply combine_renamed
  intro _ _ left right
  rw [left.sub_renamed right]

theorem mul_renamed (left right : Value) :
    (left.renamed rename).mul (right.renamed rename) = left.mul right := by
  have products : ∀ left right : Quantity,
      mulNumbers (left.renamed rename) (right.renamed rename) = mulNumbers left right := by
    apply combine_renamed
    intro _ _ left right
    rw [left.mul_renamed right]
  have numbers := onNumbers_renamed "*" products left right
  have repeated : ∀ content, repeatBy content (left.renamed rename) = repeatBy content left :=
    fun content => repeatBy_renamed content left
  cases left with
  | text content => exact repeatBy_renamed content right
  | _ =>
      cases right with
      | text content => exact repeated content
      | _ => exact numbers

theorem div_renamed (left right : Value) :
    (left.renamed rename).div (right.renamed rename) = left.div right := by
  apply onNumbers_renamed
  apply combine_renamed
  intro _ _ left right
  rw [left.div_renamed right, right.isZero_renamed]

theorem mod_renamed (left right : Value) :
    (left.renamed rename).mod (right.renamed rename) = left.mod right := by
  apply onNumbers_renamed
  apply combine_renamed
  intro _ _ left right
  rw [left.floorRemainder_renamed right, right.isZero_renamed]

/-! ### Comparison -/

theorem length_renamedFields (entries : List (String × Value)) :
    (renamedFields rename entries).length = entries.length := by
  induction entries with
  | nil => rfl
  | cons entry rest ih => exact congrArg Nat.succ ih

theorem get?_renamedFields (name : String) (entries : List (String × Value)) :
    Entries.get? name (renamedFields rename entries) =
      (Entries.get? name entries).map (renamed rename) := by
  induction entries with
  | nil => rfl
  | cons entry rest ih =>
      obtain ⟨key, value⟩ := entry
      rw [renamedFields, Entries.get?, Entries.get?]
      by_cases same : key = name
      · rw [if_pos same, if_pos same]
        rfl
      · rw [if_neg same, if_neg same, ih]

theorem sameObject_renamed (injective : Function.Injective rename) (left right : Value) :
    sameObject (left.renamed rename) (right.renamed rename) = sameObject left right := by
  have same : ∀ one other : Nat, decide (rename one = rename other) = decide (one = other) :=
    fun one other => decide_eq_decide.mpr injective.eq_iff
  cases left with
  | float leftNumber =>
      cases right with
      | float rightNumber =>
          cases leftNumber with
          | nan one =>
              cases rightNumber with
              | nan other => exact same one other
              | _ => rfl
          | _ => rfl
      | _ => cases leftNumber <;> rfl
  | table one _ =>
      cases right with
      | table other _ => exact same one other
      | _ => rfl
  | _ => rfl

theorem equalsPlain_renamed (injective : Function.Injective rename) (left right : Value) :
    equalsPlain (left.renamed rename) (right.renamed rename) = equalsPlain left right := by
  have same : ∀ one other : Nat, decide (rename one = rename other) = decide (one = other) :=
    fun one other => decide_eq_decide.mpr injective.eq_iff
  have numbers : ∀ one other : Quantity,
      decide ((one.renamed rename).order? (other.renamed rename) = some .eq) =
        decide (one.order? other = some .eq) := by
    intro one other
    rw [Quantity.order?_renamed]
  cases left with
  | none => cases right <;> rfl
  | text content => cases right <;> rfl
  | table identity entries => cases right <;> rfl
  | function one _ _ =>
      cases right with
      | function other _ _ => exact same one other
      | _ => rfl
  | service one _ =>
      cases right with
      | service other _ => exact same one other
      | _ => rfl
  | float number =>
      cases right with
      | float other => exact numbers (.real number) (.real other)
      | int other => exact numbers (.real number) (.whole other)
      | bool other => exact numbers (.real number) (.whole _)
      | _ => rfl
  | int number =>
      cases right with
      | float other => exact numbers (.whole number) (.real other)
      | _ => rfl
  | bool value =>
      cases right with
      | float other => exact numbers (.whole _) (.real other)
      | _ => rfl

mutual

theorem equalsWithin_renamed (injective : Function.Injective rename) (left right : Value)
    (depth : Nat) : equalsWithin (left.renamed rename) (right.renamed rename) depth =
      equalsWithin left right depth := by
  have plain := equalsPlain_renamed injective left right
  cases left with
  | table leftIdentity leftEntries =>
      cases right with
      | table rightIdentity rightEntries =>
          cases depth with
          | zero => rfl
          | succ depth =>
              rw [renamed, renamed, equalsWithin, equalsWithin, length_renamedFields,
                length_renamedFields, entriesEqual_renamed injective]
      | _ => exact congrArg Except.ok plain
  | _ => exact congrArg Except.ok plain

theorem entriesEqual_renamed (injective : Function.Injective rename)
    (entries others : List (String × Value)) (depth : Nat) :
    entriesEqual (renamedFields rename entries) (renamedFields rename others) depth =
      entriesEqual entries others depth := by
  cases entries with
  | nil => rfl
  | cons entry rest =>
      obtain ⟨name, value⟩ := entry
      rw [renamedFields, entriesEqual, entriesEqual, get?_renamedFields]
      cases Entries.get? name others with
      | none => rfl
      | some other =>
          dsimp only [Option.map]
          rw [sameObject_renamed injective, equalsWithin_renamed injective value other depth,
            entriesEqual_renamed injective rest others depth]

end

theorem isOrdered_renamed (left : Value) (operator : String) (wanted : Ordering) (right : Value) :
    (left.renamed rename).isOrdered operator wanted (right.renamed rename) =
      left.isOrdered operator wanted right := by
  have numbers : ∀ one other : Quantity,
      (.ok (decide ((one.renamed rename).order? (other.renamed rename) = some wanted)) :
        Except Fault Bool) = .ok (decide (one.order? other = some wanted)) := by
    intro one other
    rw [Quantity.order?_renamed]
  cases left with
  | float number =>
      cases right with
      | float other => exact numbers (.real number) (.real other)
      | int other => exact numbers (.real number) (.whole other)
      | bool other => exact numbers (.real number) (.whole _)
      | _ => rfl
  | int number =>
      cases right with
      | float other => exact numbers (.whole number) (.real other)
      | _ => rfl
  | bool value =>
      cases right with
      | float other => exact numbers (.whole _) (.real other)
      | _ => rfl
  | _ => cases right <;> rfl

end Value

end

end IndentScript
