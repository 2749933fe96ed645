/-
What reading part of a token sequence gives: a value and the tokens left over, of which there
are fewer than before, or a failure. A failure keeps the tokens that were not consumed and
the nesting depth that was reached.
-/
import ExprShell.Fault
import ExprShell.Token.Basic

namespace ExprShell.Reader

/-- What does not change while a token sequence is read. -/
structure Context where
  /-- Bound on the nesting of forms. -/
  maxDepth : Nat
  /-- Line of the last token, where the end of the input is reported. -/
  lastLine : Nat
  deriving Inhabited, Repr

/-- A fault, with the tokens not consumed and the depth reached. -/
structure Failure where
  fault : Fault
  rest : List Token
  depth : Nat
  deriving Inhabited, Repr

/-- A value that was read, and fewer than `bound` tokens left over. -/
structure Parsed (α : Type) (bound : Nat) where
  value : α
  rest : List Token
  shorter : rest.length < bound

/-- The outcome of reading, with a bound on the tokens left over. -/
abbrev Outcome (α : Type) (bound : Nat) :=
  Except Failure (Parsed α bound)

/-- A syntax error on a given line. -/
def failAt (line : Nat) (cause : SyntaxCause) (rest : List Token) (depth : Nat) : Failure :=
  ⟨.syntactic line cause, rest, depth⟩

/-- A syntax error on the line of the next token. -/
def Context.failHere (c : Context) (cause : SyntaxCause) (rest : List Token) (depth : Nat) :
    Failure :=
  let line := match rest with
    | t :: _ => t.line
    | [] => c.lastLine
  failAt line cause rest depth

/-- Something has to follow and does not. -/
def Context.failMissing (c : Context) (what : Expectation) (rest : List Token) (depth : Nat) :
    Failure :=
  c.failHere (.missing what (rest.head?.map (·.text))) rest depth

/-- The input ended where an expression has to stand. -/
def Context.failAtEnd (c : Context) (depth : Nat) : Failure :=
  failAt c.lastLine .unexpectedEnd [] depth

/-- The depth inside a form that a token opens. -/
def Context.enter (c : Context) (opening : Token) (rest : List Token) (depth : Nat) :
    Except Failure Nat :=
  if depth < c.maxDepth then .ok (depth + 1)
  else .error (failAt opening.line (.tooDeep c.maxDepth) rest depth)

end ExprShell.Reader
