/-
The interactive loop. Lines are gathered until they can be read as a program or can no longer
become one; then they are submitted, once, and the outcome is shown.
-/
import ExprShell.Session

namespace ExprShell

variable {σ : Type}

/-- More text might mend the fault. -/
def Fault.isIncomplete : Fault → Bool
  | .syntactic _ (.unclosed ..) | .syntactic _ (.unclosedForm _) | .syntactic _ .unexpectedEnd
  | .lexical _ .unterminatedString => true
  | _ => false

/-- A status as a process can report it. -/
def exitStatus (status : Nat) : Nat :=
  status % 256

namespace Report

/-- What is shown of a value: nothing for false and for a success, the status of a failure,
and any other value in printed form. -/
def echo? : Node → Option String
  | .boolean _ false => none
  | .commandResult _ status => if status = 0 then none else some s!"[exit {status}]\n"
  | n => some (n.display ++ "\n")

/-- The line that reports a fault. -/
def fault (f : Fault) : String :=
  s!"error[{f.category.name}]: {f.message}\n"

/-- The line that reports an evaluation that was cut off. -/
def cutOff : String := "error[runtime]: evaluation cut off\n"

end Report

namespace State

def tell (host : Host σ) (text : String) (s : State σ) : State σ :=
  { s with host := host.tell text s.host }

def warn (host : Host σ) (text : String) (s : State σ) : State σ :=
  { s with host := host.warn text s.host }

/-- Shows a value. -/
def echo (host : Host σ) (n : Node) (s : State σ) : State σ :=
  match Report.echo? n with
  | some text => s.tell host text
  | none => s

end State

/-- An interactive loop between two lines. -/
structure Repl (σ : Type) where
  /-- Lines that are no program yet. -/
  buffer : String := ""
  state : State σ

namespace Repl

def prompt : String := "exprsh> "

def continuationPrompt : String := "   ...> "

/-- What follows a line. -/
inductive Next (σ : Type) where
  | more (r : Repl σ)
  /-- The loop was left. -/
  | quit (s : State σ)
  /-- The program asked to exit. -/
  | exit (status : Nat) (s : State σ)

/-- Submits a text: `none` if more lines are needed, in which case nothing has changed. -/
def submit (setup : Setup σ) (text : String) (s : State σ) :
    Option (Except Halt Node) × State σ :=
  match setup.read text with
  | .error f => if f.isIncomplete then (none, s) else (some (.error (.fault f)), s)
  | .ok program =>
    match Session.submit setup program s with
    | (r, s) => (some r, s)

/-- Submits the text gathered and shows what comes of it. -/
def finish (setup : Setup σ) (text : String) (s : State σ) : Next σ :=
  match submit setup text s with
  | (none, s) => .more { buffer := text, state := s }
  | (some (.ok n), s) => .more { state := s.echo setup.host n }
  | (some (.error (.exit status)), s) => .exit status s
  | (some (.error (.fault f)), s) => .more { state := s.warn setup.host (Report.fault f) }
  | (some (.error _), s) => .more { state := s.warn setup.host Report.cutOff }

/-- Takes a line. Between submissions, blank lines are passed over and two words leave the
loop. -/
def feed (setup : Setup σ) (r : Repl σ) (line : String) : Next σ :=
  if r.buffer.isEmpty then
    match Text.trim line with
    | "" => .more r
    | "exit" | "quit" => .quit r.state
    | _ => finish setup line r.state
  else finish setup (r.buffer ++ "\n" ++ line) r.state

/-- Asks for a line. -/
def ask (setup : Setup σ) (r : Repl σ) : Repl σ :=
  let text := if r.buffer.isEmpty then prompt else continuationPrompt
  { r with state := r.state.tell setup.host text }

/-- What is reported where the input is no text. -/
def unreadable : String :=
  "Error: failed to read input\n\nCaused by:\n    stream did not contain valid UTF-8\n"

/-- Runs the loop on lines and gives the status to exit with. -/
def run (setup : Setup σ) (r : Repl σ) : List (Option String) → Nat × State σ
  | [] => (0, (r.ask setup).state.tell setup.host "\n")
  | none :: _ => (1, (r.ask setup).state.warn setup.host unreadable)
  | some line :: rest =>
    match (r.ask setup).feed setup line with
    | .more r => run setup r rest
    | .quit s => (0, s.tell setup.host "\n")
    | .exit status s => (exitStatus status, s)

end Repl

end ExprShell
