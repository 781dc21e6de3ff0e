import IndentScript.Value.Comparison
import IndentScript.Value.Template

/-!
What the operators of the language do. Both operands are given; `and` and `or` choose one of
them. A remainder with a text on the left fills the text in as a template.
-/

namespace IndentScript

def Operator.apply [Limits] (operator : Operator) (left right : Value) : Except Fault Value :=
  match operator with
  | plus => left.add right
  | minus => left.sub right
  | times => left.mul right
  | divide => left.div right
  | percent =>
    match left with
    | .text template => (fillTemplate template right).map .text
    | _ => left.mod right
  | equals => (left.equals right).map .bool
  | greater => (left.isOrdered ">" .gt right).map .bool
  | less => (left.isOrdered "<" .lt right).map .bool
  | and => .ok (if left.isTrue then right else left)
  | or => .ok (if left.isTrue then left else right)
  | unknown name => .error (.unknownOperator name)

end IndentScript
