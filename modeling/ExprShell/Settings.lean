/-
Settings of a shell, with their defaults, and as the variables of a process give them.
-/
import ExprShell.Number
import ExprShell.Reader.Program
import ExprShell.Text.Blank
import ExprShell.Text.Split

namespace ExprShell

structure Settings where
  /-- Directories that are searched for programs, in order. -/
  searchPath : List String := []
  /-- Bound on active procedure calls. -/
  maxDepth : Nat := 256
  /-- Bound on the nesting of source text. -/
  maxReadDepth : Nat := Reader.defaultMaxDepth
  deriving Inhabited, Repr

namespace Settings

/-- A positive 64-bit decimal, possibly after a plus sign, blanks around it allowed. -/
def depth? (text : String) : Option Nat :=
  let digits := match (Text.trim text).toList with
    | '+' :: rest => rest
    | all => all
  if digits.isEmpty || !digits.all Char.isDigit then none
  else
    let n := Number.ofDigits digits
    if 0 < n && (n : Int) ≤ Number.maxUnsigned then some n else none

/-- Settings from the search path and the depth variable; a depth that makes no sense is
ignored. -/
def ofVariables (path maxDepth : Option String) : Settings :=
  let defaults : Settings := {}
  { defaults with
    searchPath := match path with
      | some text => Text.pieces text ":"
      | none => []
    maxDepth := (maxDepth.bind depth?).getD defaults.maxDepth }

end Settings

end ExprShell
