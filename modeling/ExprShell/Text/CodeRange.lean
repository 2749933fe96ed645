/-
Ranges of code points, the form in which properties of characters are tabulated.
-/

namespace ExprShell.Text

/-- A range of code points, both ends included. -/
structure CodeRange where
  first : Nat
  last : Nat
  deriving Repr

namespace CodeRange

def contains (r : CodeRange) (c : Char) : Bool :=
  r.first ≤ c.toNat && c.toNat ≤ r.last

/-- Some range of a table contains the character. -/
def cover (table : List CodeRange) (c : Char) : Bool :=
  table.any (·.contains c)

end CodeRange

end ExprShell.Text
