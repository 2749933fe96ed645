/-
Patterns of `match`. Quoted data matches position by position, its names capturing what they
meet. A call to one of the relations holds the scrutinee against an evaluated operand, and
`cons` takes a list apart. Every other pattern is a value to be equal to.
-/
import ExprShell.Node.Access

namespace ExprShell

/-- What a pattern binds, in order: a later capture of a name replaces an earlier one. -/
abbrev Captures := List (String × Node)

namespace Node

mutual

/-- Matches one item of a quoted pattern: the wildcard takes anything, a name captures, lists
match item by item, and other leaves have to be equal. -/
def matches? : Node → Node → Option Captures
  | .list _ ps, v =>
    match v with
    | .list _ vs => allMatch? ps vs
    | _ => none
  | .identifier _ name, v => if name == "_" then some [] else some [(name, v)]
  | p, v => if p.same v then some [] else none

/-- Matches items in order; none may be left over. -/
def allMatch? : List Node → List Node → Option Captures
  | [], [] => some []
  | p :: ps, v :: vs => do
    let first ← p.matches? v
    let others ← allMatch? ps vs
    return first ++ others
  | _, _ => none

end

/-- The name that a pattern captures under. -/
def captureName : Node → Except Fault String
  | .identifier _ name => .ok name
  | n => .error (.wrongKind "a capture name" n)

/-- The head and the tail of a list under two names. -/
def destructure (scrutinee head tail : Node) : Except Fault Captures :=
  match scrutinee with
  | .list _ (first :: rest) => do
    let headName ← head.captureName
    let tailName ← tail.captureName
    return [(headName, first), (tailName, .data rest)]
  | .list _ [] => .error (.mistyped "a list to destructure" "empty list")
  | n => .error (.wrongKind "a list to destructure" n)

end Node

/-- Relations between a scrutinee and an operand. -/
inductive Relation where
  | member
  | less
  | greater
  | equal
  | notEqual
  deriving Inhabited, DecidableEq, Repr

namespace Relation

def ofName? : String → Option Relation
  | "in" => some member
  | "<" => some less
  | ">" => some greater
  | "=" => some equal
  | "!=" => some notEqual
  | _ => none

/-- The relation that the head of a pattern stands for. A name that is no operator stands for
membership. -/
def ofHead? : Node → Option Relation
  | .operator _ name => ofName? name
  | .identifier .. => some member
  | _ => none

/-- The order of two numbers as signed words; other values have none. -/
def order? : Node → Node → Option Ordering
  | .number _ a, .number _ b => some (compare a.truncate.toInt b.truncate.toInt)
  | _, _ => none

/-- Whether the relation holds; only membership can be asked of the wrong kind of operand. -/
def holds (r : Relation) (scrutinee operand : Node) : Except Fault Bool :=
  match r with
  | member => operand.asList.map scrutinee.isIn
  | less => .ok (order? scrutinee operand == some .lt)
  | greater => .ok (order? scrutinee operand == some .gt)
  | equal => .ok (operand.same scrutinee)
  | notEqual => .ok (!operand.same scrutinee)

/-- The captures if the relation holds: nothing, or the scrutinee under the name given. -/
def test (r : Relation) (capture? : Option Node) (scrutinee operand : Node) :
    Except Fault (Option Captures) := do
  if ← r.holds scrutinee operand then
    match capture? with
    | none => return some []
    | some capture =>
      let name ← capture.captureName
      return some [(name, scrutinee)]
  else return none

end Relation

end ExprShell
