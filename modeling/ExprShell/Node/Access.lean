/-
Reading a node as a list, a number or a string. A node of another kind is a fault that names
both kinds.
-/
import ExprShell.Fault

namespace ExprShell.Node

/-- The items of a list. -/
def asList : Node → Except Fault (List Node)
  | .list _ items => .ok items
  | n => .error (.wrongKind "list" n)

def asNumber : Node → Except Fault Number
  | .number _ n => .ok n
  | n => .error (.wrongKind "number" n)

/-- The text of a string. -/
def asString : Node → Except Fault String
  | .string _ text => .ok text
  | n => .error (.wrongKind "string" n)

/-- The numbers of several nodes. -/
def asNumbers : List Node → Except Fault (List Number)
  | [] => .ok []
  | n :: rest => do
    let m ← n.asNumber
    let ms ← asNumbers rest
    return m :: ms

end ExprShell.Node
