/-
Sessions with a shell. Procedure calls nest up to the depth of the settings, and `eval` and
`load` up to the budget; a top-level evaluation drops its variables when it ends, however it
ends.
-/
import ExprShell.Eval.Node

namespace ExprShell

variable {σ : Type}

/-! ## Nesting -/

namespace Eval

/-- A computation in a frame and a procedure scope of its own, both gone afterwards. -/
def inFrame {α : Type} (name : String) (bindings : Table Node) (x : Eval σ α) : Eval σ α :=
  fun s =>
    match x { s with env := (s.env.pushFrame name bindings).pushScope } with
    | (r, s) => (r, { s with env := s.env.popScope.popFrame })

end Eval

namespace Setup

/-- Reentry with room for so many more frames; `run` says how a program runs in the room that
is left. -/
def withRoom (setup : Setup σ) (run : Nat → List Node → Eval σ Node) : Nat → Reentry σ
  | 0 =>
    { enter := fun _ _ _ => Eval.fail (.recursionLimit setup.settings.maxDepth)
      run := run 0 }
  | room + 1 =>
    { enter := fun name bindings body =>
        Eval.inFrame name bindings (Eval.execute setup (withRoom setup run room) body)
      run := run (room + 1) }

/-- How a program runs inside `eval` and `load`, with a budget for more of them. -/
def nested (setup : Setup σ) : Nat → Nat → List Node → Eval σ Node
  | 0, _, _ => Eval.halt .exhausted
  | budget + 1, room, program =>
    Eval.execute setup (setup.withRoom (nested setup budget) room) program

/-- Reentry where so many frames are active. -/
def reentry (setup : Setup σ) (active : Nat) : Reentry σ :=
  setup.withRoom (nested setup setup.budget) (setup.settings.maxDepth - active)

end Setup

/-! ## Requests -/

namespace Session

/-- A shell with nothing bound. -/
def start (host : σ) : State σ := { env := {}, host }

/-- Evaluates a node where the session stands. -/
def evalNode (setup : Setup σ) (n : Node) : Eval σ Node := fun s =>
  Eval.evalNode setup (setup.reentry s.env.frameDepth) n s

/-- Runs a program where the session stands. -/
def execute (setup : Setup σ) (program : List Node) : Eval σ Node := fun s =>
  Eval.execute setup (setup.reentry s.env.frameDepth) program s

/-- Calls a name with values. -/
def callNamed (setup : Setup σ) (name : String) (args : List Node) : Eval σ Node := fun s =>
  Eval.callNamed setup (setup.reentry s.env.frameDepth) name args s

/-- Calls a value with values. -/
def callNode (setup : Setup σ) (f : Node) (args : List Node) : Eval σ Node := fun s =>
  Eval.callNode setup (setup.reentry s.env.frameDepth) f args s

/-- Calls a procedure with values. -/
def invoke (setup : Setup σ) (name : String) (p : Procedure) (args : List Node) :
    Eval σ Node := fun s =>
  (setup.reentry s.env.frameDepth).invoke name p args s

/-- Runs a file where the session stands. -/
def loadFile (setup : Setup σ) (path : String) : Eval σ Node := fun s =>
  Eval.loadFile setup (setup.reentry s.env.frameDepth) path s

/-- Drops variables, frames and inner procedures. -/
def reset (s : State σ) : State σ :=
  { s with env := s.env.reset }

/-- Runs a program as a top-level evaluation. -/
def submit (setup : Setup σ) (program : List Node) : Eval σ Node := fun s =>
  match execute setup program s with
  | (r, s) => (r, reset s)

/-- Reads and runs a source text where the session stands. -/
def executeSource (setup : Setup σ) (source : String) : Eval σ Node := do
  let program ← Eval.ofExcept (setup.read source)
  execute setup program

/-- Reads and runs a source text as a top-level evaluation. -/
def evaluate (setup : Setup σ) (source : String) : Eval σ Node := fun s =>
  match executeSource setup source s with
  | (r, s) => (r, reset s)

end Session

end ExprShell
