/-
The machine as a host of the shell.
-/
import ExprShell.Host.Basic
import ExprShell.Machine.Process

namespace ExprShell.Machine

/-- The program of a name, as the machine's service sees it. -/
def resolve (m : Machine) (searchPath : List String) (name : String) : Option String :=
  match m.service with
  | .scripts => m.locate searchPath name
  | .rehearsed r => r.resolve name

/-- Runs a pipeline on the machine's service. -/
def pipeline (commands : List Command) (input : Option String) (mode : OutputMode)
    (m : Machine) : Except Fault Completed × Machine :=
  match m.service with
  | .scripts => m.runPipeline commands input mode
  | .rehearsed r =>
    match r.pipeline commands input mode with
    | (outcome, r) => (outcome, { m with service := .rehearsed r })

/-- The value of a computation of the machine, or the reason for its refusal. -/
def worded {α : Type} : Except Refusal α → Except String α
  | .ok a => .ok a
  | .error refusal => .error refusal.message

/-- The machine as a host. -/
def host : Host Machine where
  resolve := resolve
  pipeline := pipeline
  locate := locate
  readFile m path := worded (m.readFile path)
  print text m := .ok (m.print text)
  tell := print
  warn := warn
  workingDirectory m := .ok (Files.path m.directory)
  changeDirectory path m := worded (m.changeDirectory path)
  valueOf? := valueOf?
  setVariable := setVariable

end ExprShell.Machine
