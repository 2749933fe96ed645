/-
Processes of the machine. All programs of a pipeline are started before any output is shown,
so that a program that cannot be started leaves no trace.
-/
import ExprShell.Machine.Basic
import ExprShell.Script.Run
import ExprShell.Text.Octets

namespace ExprShell.Machine

def hasNul (text : String) : Bool :=
  text.toList.contains '\x00'

/-- The path that the first line of a script names as its interpreter. -/
def interpreter? (script : String) : Option String :=
  match script.toList with
  | '#' :: '!' :: rest =>
    let line := (rest.takeWhile (· != '\n')).dropWhile fun c => c == ' ' || c == '\t'
    some (String.ofList (line.takeWhile fun c => c != ' ' && c != '\t'))
  | _ => none

/-- The text of a program that can be started, in octets. -/
def load (m : Machine) (path : String) : Except Refusal String := do
  match ← m.files.get m.directory path with
  | .directory => throw .denied
  | .file _ false => throw .denied
  | .file content true =>
    let script := Text.octetsOfBytes content
    match interpreter? script with
    | none => throw .badFormat
    | some interpreter =>
      match ← m.files.get m.directory interpreter with
      | .directory => throw .denied
      | .file _ false => throw .denied
      | .file _ true => if interpreter == shell then return script else throw .badFormat

/-- The paths at which the system looks for a program. -/
def candidates (m : Machine) (program : String) : List String :=
  if program.toList.contains '/' then [program]
  else
    match m.valueOf? "PATH" with
    | some path => (path.splitOn ":").map fun directory =>
      if directory.isEmpty then program else joined directory program
    | none => []

/-- The text of the first program found; one that must not be run is passed over, but
remembered. -/
def search (m : Machine) (remembered : Refusal) : List String → Except Refusal String
  | [] => .error remembered
  | path :: rest =>
    match m.load path with
    | .ok script => .ok script
    | .error .notFound | .error .notDirectory => search m remembered rest
    | .error .denied => search m .denied rest
    | .error refusal => .error refusal

/-- The text of the program of a command. -/
def start (m : Machine) (c : Command) : Except Refusal String :=
  if hasNul c.program || c.args.any hasNul || c.env.any (fun e => hasNul e.1 || hasNul e.2) then
    .error .nulInData
  else if c.program.isEmpty then .error .notFound
  else if c.program.toList.contains '/' then m.load c.program
  else m.search .notFound (m.candidates c.program)

/-- The variables that a command sees, as the shell takes them from entries. -/
def variablesFor (m : Machine) (c : Command) : List (String × String) :=
  let entries := c.env.foldl (fun vs e => assign vs e.1 e.2) m.entries
  entries.map fun (key, value) =>
    let (name, rest) := (Text.octets (key ++ "=" ++ value)).toList.span (· != '=')
    (String.ofList name, String.ofList (rest.drop 1))

/-- Starts all commands of a pipeline. -/
def startAll (m : Machine) : List Command → Except Fault (List (Command × String))
  | [] => .ok []
  | c :: rest =>
    match m.start c with
    | .error refusal => .error (.process c.program s!"failed to spawn: {refusal.message}")
    | .ok script => do
      let others ← m.startAll rest
      return (c, script) :: others

/-- What is left of a pipeline that ran: the last status, the last output, and what the first
command left unread. -/
structure Trace where
  status : Int
  output : String
  errors : String
  unread : List Char

/-- Runs one program on an input of octets. -/
def runOne (m : Machine) (c : Command) (script : String) (input : List Char) : Script.Run :=
  Script.run script
    { name := Text.octets c.program, args := c.args.map Text.octets,
      bindings := m.variablesFor c, input }

/-- Runs programs that were started, each on the output of the one before. -/
def runAll (m : Machine) (trace : Trace) : List (Command × String) → Trace
  | [] => trace
  | (c, script) :: rest =>
    let run := m.runOne c script trace.output.toList
    m.runAll { trace with
      status := run.finalStatus, output := run.output, errors := trace.errors ++ run.errors } rest

/-- Runs a pipeline. -/
def runPipeline (commands : List Command) (input : Option String) (mode : OutputMode)
    (m : Machine) : Except Fault Completed × Machine :=
  match commands with
  | [] => (.error (.runtime .emptyPipeline), m)
  | commands =>
    match m.startAll commands with
    | .error f => (.error f, m)
    | .ok [] => (.error (.runtime .emptyPipeline), m)
    | .ok ((c, script) :: rest) =>
      let given := match input with
        | some text => (Text.octets text).toList
        | none => (Text.octetsOfBytes m.input).toList
      let first := m.runOne c script given
      let trace := m.runAll
        { status := first.finalStatus, output := first.output, errors := first.errors,
          unread := first.input } rest
      let output := Text.bytesOfOctets trace.output
      let m := { m with
        input := if input.isSome then m.input
          else Text.bytesOfOctets (String.ofList trace.unread)
        errors := m.errors ++ Text.bytesOfOctets trace.errors }
      match mode with
      | .capture =>
        (.ok { status := trace.status, stdout := some (Text.Utf8.decodeLossy output) }, m)
      | .inherit => (.ok { status := trace.status }, { m with output := m.output ++ output })

end ExprShell.Machine
