/-
A process service that runs nothing: it plays prepared replies and keeps a record of what it
was asked for.
-/
import ExprShell.Fault
import ExprShell.Host.Command

namespace ExprShell

/-- What a pipeline comes to. -/
inductive Reply where
  | failure (reason : String)
  | completed (status : Int) (stdout : Option String)
  deriving Inhabited, Repr

/-- A pipeline that was asked for. -/
structure Request where
  commands : List Command
  input : Option String
  mode : OutputMode
  deriving Inhabited, DecidableEq, Repr

/-- Prepared replies. -/
structure Rehearsal where
  /-- Where the programs are said to be. -/
  directory : String
  programs : List String
  /-- Replies in order; the last one is played again and again. -/
  replies : List Reply
  /-- Pipelines asked for, the latest first. -/
  requests : List Request := []
  deriving Inhabited, Repr

namespace Rehearsal

def resolve (r : Rehearsal) (name : String) : Option String :=
  if r.programs.contains name then some (r.directory ++ "/" ++ name) else none

/-- The reply to the next pipeline; without any, a success that wrote nothing. -/
def next (r : Rehearsal) : Reply :=
  match r.replies with
  | [] => .completed 0 none
  | first :: _ => first

/-- The replies that are left after one was played. -/
def rest (r : Rehearsal) : List Reply :=
  match r.replies with
  | _ :: second :: rest => second :: rest
  | replies => replies

/-- Plays the next reply. Output is given back only where it is asked for. -/
def pipeline (r : Rehearsal) (commands : List Command) (input : Option String)
    (mode : OutputMode) : Except Fault Completed × Rehearsal :=
  let outcome := match r.next with
    | .failure reason => .error (.process ((commands.head?.map (·.program)).getD "") reason)
    | .completed status stdout =>
      .ok { status, stdout := if mode = .capture then stdout else none }
  (outcome, { r with replies := r.rest, requests := ⟨commands, input, mode⟩ :: r.requests })

end Rehearsal

end ExprShell
