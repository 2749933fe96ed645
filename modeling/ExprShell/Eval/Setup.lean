/-
What an evaluation works with and does not change: the host, the settings and the tools, and
the ways in which evaluation starts again on other code or is left.
-/
import ExprShell.Eval.Keyword
import ExprShell.Tool.Run

namespace ExprShell

/-- What a shell is made of. -/
structure Setup (σ : Type) where
  host : Host σ
  settings : Settings := {}
  tools : List Tool := Tool.standard
  /-- Bound on nested `eval` and `load`. -/
  budget : Nat := 1000000

/-- The ways to evaluate code that is no part of the code at hand, and the way out. -/
structure Reentry (σ : Type) where
  /-- Runs the body of a procedure, given its name and bindings, in a frame and a scope of
  its own. -/
  enter : String → Table Node → List Node → Eval σ Node
  /-- Runs a program where the evaluation stands. -/
  run : List Node → Eval σ Node
  /-- Ends the evaluation with a status. -/
  leave : Nat → Eval σ Node := fun status => Eval.halt (.exit status)

variable {σ : Type}

/-- Calls a procedure with evaluated arguments. -/
def Reentry.invoke (re : Reentry σ) (name : String) (p : Procedure) (args : List Node) :
    Eval σ Node :=
  if p.params.length = args.length then
    re.enter name (Table.insertAll [] (p.params.zip args)) p.body
  else Eval.fail (.arity name p.params.length args.length)

namespace Setup

/-- The expressions of a source text, read within the nesting bound. -/
def read (setup : Setup σ) (source : String) : Except Fault (List Node) :=
  parse source setup.settings.maxReadDepth

/-- The program that a name stands for. -/
def program? (setup : Setup σ) (host : σ) (name : String) : Option String :=
  setup.host.resolve host setup.settings.searchPath name

/-- Runs a pipeline, all of whose commands are known. -/
def pipeline (setup : Setup σ) (commands : List Command) (input : Option String)
    (mode : OutputMode) : Eval σ Completed := fun s =>
  match setup.host.pipeline commands input mode s.host with
  | (.ok done, host) => (.ok done, { s with host })
  | (.error f, host) => (.error (.fault f), { s with host })

/-- Runs a pipeline on the output of the shell and gives its status. -/
def runShown (setup : Setup σ) (commands : List Command) (input : Option String) :
    Eval σ Node := do
  let done ← setup.pipeline commands input .inherit
  return .status done.status

/-- The name means something where the evaluation stands. -/
def isDefined (setup : Setup σ) (env : Environment) (name : String) : Bool :=
  (Form.ofName? name).isSome || (Builtin.ofName? name).isSome ||
    (Tool.find? setup.tools name).isSome || env.hasProcedure name || env.has name

end Setup

end ExprShell
