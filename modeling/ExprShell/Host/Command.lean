/-
External commands: programs with their arguments, and what comes back from a pipeline.
-/
import ExprShell.Node.Print

namespace ExprShell

/-- A program, its arguments, and variables set for this run only. -/
structure Command where
  program : String
  args : List String := []
  env : List (String × String) := []
  deriving Inhabited, DecidableEq, Repr

/-- The program followed by its arguments. -/
def Command.argv (c : Command) : List String :=
  c.program :: c.args

/-- Where the output of the last command of a pipeline goes. -/
inductive OutputMode where
  /-- To the output of the shell. -/
  | inherit
  /-- Back to the shell as text. -/
  | capture
  deriving Inhabited, DecidableEq, Repr

/-- The end of a pipeline. -/
structure Completed where
  /-- Exit status of the last command, -1 if a signal ended it. -/
  status : Int
  /-- The captured output. -/
  stdout : Option String := none
  deriving Inhabited, DecidableEq, Repr

mutual

/-- The arguments that a value stands for: a list stands for those of its items. -/
def Node.arguments : Node → List String
  | .list _ items => argumentsOf items
  | n => [n.plain]

/-- The arguments that several values stand for. -/
def Node.argumentsOf : List Node → List String
  | [] => []
  | n :: rest => n.arguments ++ argumentsOf rest

end

/-- Names and values of variables, from alternating nodes. -/
def Node.pairs? : List Node → Option (List (String × String))
  | [] => some []
  | [_] => none
  | name :: value :: rest => (Node.pairs? rest).map ((name.plain, value.plain) :: ·)

end ExprShell
