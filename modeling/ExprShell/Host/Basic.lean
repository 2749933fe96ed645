/-
The world outside the shell, as far as the shell can see it: a process service, files, a
working directory, variables and outputs. The evaluator works for any such host over any
type of states.
-/
import ExprShell.Fault
import ExprShell.Host.Command

namespace ExprShell

/-- A host whose states are of type `σ`. Reasons for failures are texts of the host. -/
structure Host (σ : Type) where
  /-- The program that a name stands for on a search path, as the process service sees it. -/
  resolve : σ → List String → String → Option String
  /-- Runs a pipeline: the output of each command is the input of the next, and the given
  text is the input of the first. -/
  pipeline : List Command → Option String → OutputMode → σ → Except Fault Completed × σ
  /-- The executable file that a name stands for on a search path. -/
  locate : σ → List String → String → Option String
  /-- The text of a file. -/
  readFile : σ → String → Except String String
  /-- Writes what a program prints to the output of the shell. -/
  print : String → σ → Except String σ
  /-- Writes what the shell itself has to say to its output. -/
  tell : String → σ → σ
  /-- Writes to the error output of the shell. -/
  warn : String → σ → σ
  workingDirectory : σ → Except String String
  changeDirectory : String → σ → Except String σ
  valueOf? : σ → String → Option String
  setVariable : String → String → σ → σ

end ExprShell
