/-
Quoted data turned back into code: the quotes go, at every level of lists, and an
identifier at the head of a list becomes the operator of a call.
-/
import ExprShell.Node.Basic

namespace ExprShell.Node

/-- An identifier as the operator of a call. -/
def promote : Node → Node
  | .identifier s name => .operator s name
  | n => n

/-- The first of several nodes promoted. -/
def promoteHead : List Node → List Node
  | [] => []
  | head :: rest => head.promote :: rest

/-- The node without its own quote. -/
def unquote (n : Node) : Node :=
  n.withStamp { n.stamp with quoted := false }

mutual

/-- The expression that a piece of quoted data spells. -/
def toExpression : Node → Node
  | .list s items => .list { s with quoted := false } (promoteHead (toExpressions items))
  | n => n.unquote

/-- The expressions of several nodes. -/
def toExpressions : List Node → List Node
  | [] => []
  | n :: rest => toExpression n :: toExpressions rest

end

end ExprShell.Node
