import IndentScript.Value.Arithmetic

/-!
Comparison of values. Numbers compare by value, an integer and a float without rounding. Texts
are ordered by their code points. Tables are equal when they have the same names with equal
values, in any order. Functions are equal to themselves only, and values of different sorts are
never equal.

Inside two tables the very same object counts as equal without a look at it: a table,
recognised by its identity, or a float that is not a number, recognised by its payload, which
otherwise differs from itself. Tables that nest too deep cannot be compared.
-/

namespace IndentScript

namespace Value

def Quantity.order? : Quantity → Quantity → Option Ordering
  | whole left, whole right => some (compare left right)
  | whole left, real right => (right.orderInt? left).map Ordering.swap
  | real left, whole right => left.orderInt? right
  | real left, real right => left.order? right

/-- Whether two values are the same table, or the same float that is not a number. -/
def sameObject : Value → Value → Bool
  | float (.nan left), float (.nan right) => left = right
  | table left _, table right _ => left = right
  | _, _ => false

/-- Whether two values that are not both tables are equal. -/
def equalsPlain : Value → Value → Bool
  | none, none => true
  | text left, text right => left = right
  | function left _ _, function right _ _ => left = right
  | service left _, service right _ => left = right
  | left, right =>
    match left.quantity?, right.quantity? with
    | some leftNumber, some rightNumber => leftNumber.order? rightNumber = some .eq
    | _, _ => false

mutual

/-- Whether two values are equal; tables may nest to the given depth. -/
def equalsWithin : Value → Value → Nat → Except Fault Bool
  | table _ _, table _ _, 0 => .error .tooDeep
  | table _ left, table _ right, depth + 1 =>
    if left.length = right.length then entriesEqual left right depth else .ok false
  | left, right, _ => .ok (equalsPlain left right)

def entriesEqual : List (String × Value) → List (String × Value) → Nat → Except Fault Bool
  | [], _, _ => .ok true
  | (name, value) :: rest, others, depth =>
    match Entries.get? name others with
    | Option.none => .ok false
    | some other => do
      let same ← if sameObject value other then .ok true else equalsWithin value other depth
      if same then entriesEqual rest others depth else return false

end

def equals [Limits] (left right : Value) : Except Fault Bool :=
  equalsWithin left right nestingLimit

/-- Whether two values, which must be two numbers or two texts, stand in the order `wanted`. -/
def isOrdered (left : Value) (operator : String) (wanted : Ordering) (right : Value) :
    Except Fault Bool :=
  match left, right with
  | text leftText, text rightText => .ok (leftText.order rightText = wanted)
  | _, _ =>
    match left.quantity?, right.quantity? with
    | some leftNumber, some rightNumber => .ok (leftNumber.order? rightNumber = some wanted)
    | _, _ => .error (.unordered operator left.dataType right.dataType)

end Value

end IndentScript
