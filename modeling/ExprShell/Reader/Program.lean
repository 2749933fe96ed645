/-
Whole programs, and the reader that other code holds on to. A `Reader` remembers where it is:
after a failure it stays at the token it could not use, and at the depth it had reached.
-/
import ExprShell.Reader.Form
import ExprShell.Token.Scanner

namespace ExprShell

/-- Bound on nesting where none is given. -/
def Reader.defaultMaxDepth : Nat := 128

/-- A reader of a token sequence. -/
structure Reader where
  /-- All tokens. -/
  tokens : List Token
  /-- The tokens not consumed yet. -/
  rest : List Token
  /-- Nesting depth that the last failure left. -/
  depth : Nat := 0
  maxDepth : Nat := Reader.defaultMaxDepth
  deriving Inhabited, Repr

namespace Reader

/-- Expressions to the end of the tokens, separators between them skipped. -/
def program (c : Context) (depth : Nat) (ts : List Token) : Except Failure (List Node) :=
  match ts with
  | [] => .ok []
  | t :: rest =>
    if t.shape = .separator then program c depth rest
    else do
      let ⟨n, after, _⟩ ← statement c depth (t :: rest)
      let ns ← program c depth after
      return n :: ns
termination_by ts.length
decreasing_by
  all_goals
    simp only [List.length_cons] at *
    omega

def ofTokens (tokens : List Token) (maxDepth : Nat := defaultMaxDepth) : Reader :=
  { tokens, rest := tokens, maxDepth }

/-- The line of the last token. -/
def lastLine (tokens : List Token) : Nat :=
  match tokens.getLast? with
  | some t => t.line
  | none => 1

def context (r : Reader) : Context :=
  ⟨r.maxDepth, lastLine r.tokens⟩

/-- Reads all that is left as a program. -/
def readAll (r : Reader) : Except Fault (List Node) × Reader :=
  match program r.context r.depth r.rest with
  | .ok nodes => (.ok nodes, { r with rest := [] })
  | .error f => (.error f.fault, { r with rest := f.rest, depth := f.depth })

/-- An expression and where it stands. -/
structure Located where
  node : Node
  /-- Index of its last token. -/
  endIndex : Nat
  /-- Line of its first token. -/
  line : Nat
  deriving Inhabited, Repr

/-- Reads the one expression that starts at a token, from depth zero. -/
def readAt (r : Reader) (start : Nat) : Except Fault Located × Reader :=
  let rest := r.tokens.drop start
  match statement r.context 0 rest with
  | .ok p =>
    let located := ⟨p.value, r.tokens.length - p.rest.length - 1, (rest.head?.map (·.line)).getD 0⟩
    (.ok located, { r with rest := p.rest, depth := 0 })
  | .error f => (.error f.fault, { r with rest := f.rest, depth := f.depth })

end Reader

/-- The program that a text spells, with a bound on its nesting. -/
def parse (source : String) (maxDepth : Nat := Reader.defaultMaxDepth) :
    Except Fault (List Node) := do
  (Reader.ofTokens (← tokenize source) maxDepth).readAll.1

end ExprShell
