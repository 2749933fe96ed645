/-
A machine to run the shell on: files, a working directory, variables, an input and two
outputs. Programs are scripts for the machine's own shell, or rehearsed.
-/
import ExprShell.Host.Rehearsal
import ExprShell.Machine.Files
import ExprShell.Text.Utf8

namespace ExprShell

/-- How the machine runs programs. -/
inductive Service where
  | scripts
  | rehearsed (r : Rehearsal)
  deriving Inhabited

/-- A machine. -/
structure Machine where
  files : Machine.Files := []
  /-- The working directory. -/
  directory : Machine.Location := []
  /-- Names and values of variables. -/
  entries : List (String × String) := []
  /-- What programs can read of the shell's own input. -/
  input : ByteArray := .empty
  output : ByteArray := .empty
  errors : ByteArray := .empty
  service : Service := .scripts

namespace Machine

/-- Where the machine's shell is. -/
def shell : String := "/bin/sh"

/-- A machine with its shell and nothing else. -/
def fresh : Machine :=
  { files := Files.add [] ["bin", "sh"] (.file .empty true) }

/-! ## Output -/

def print (text : String) (m : Machine) : Machine :=
  { m with output := m.output ++ text.toUTF8 }

def warn (text : String) (m : Machine) : Machine :=
  { m with errors := m.errors ++ text.toUTF8 }

/-! ## Files -/

/-- The text of a file. -/
def readFile (m : Machine) (path : String) : Except Refusal String := do
  match ← m.files.get m.directory path with
  | .directory => throw .isDirectory
  | .file content _ =>
    match Text.Utf8.decode? content with
    | some text => return text
    | none => throw .notText

def changeDirectory (path : String) (m : Machine) : Except Refusal Machine := do
  let place ← m.files.locate m.directory path
  match m.files.entry? place with
  | some .directory => return { m with directory := place }
  | some (.file ..) => throw .notDirectory
  | none => throw .notFound

/-- The path leads to a program. -/
def isExecutable (m : Machine) (path : String) : Bool :=
  match m.files.get m.directory path with
  | .ok (.file _ executable) => executable
  | _ => false

/-- The path of a name inside a directory. -/
def joined (directory name : String) : String :=
  if directory.endsWith "/" then directory ++ name else directory ++ "/" ++ name

/-- The program of a name: a name with a slash is a path, any other is looked for in the
directories of the search path, of which empty ones are left out. -/
def locate (m : Machine) (searchPath : List String) (name : String) : Option String :=
  if name.isEmpty then none
  else if name.toList.contains '/' then if m.isExecutable name then some name else none
  else ((searchPath.filter (!·.isEmpty)).map (joined · name)).find? m.isExecutable

/-! ## Variables -/

/-- What follows the start of a text. -/
def after? (start text : String) : Option String :=
  (start.toList.isPrefixOf? text.toList).map String.ofList

/-- The value of a variable. A variable is an entry of name, sign of equality and value, and
the first entry counts that goes on with the name and the sign. -/
def valueOf? (m : Machine) (name : String) : Option String :=
  if name.isEmpty || name.toList.contains '\x00' then none
  else m.entries.findSome? fun (key, value) => after? (name ++ "=") (key ++ "=" ++ value)

/-- Variables with one set. -/
def assign (entries : List (String × String)) (name value : String) :
    List (String × String) :=
  if entries.any (·.1 == name) then
    entries.map fun entry => if entry.1 == name then (name, value) else entry
  else entries ++ [(name, value)]

def setVariable (name value : String) (m : Machine) : Machine :=
  { m with entries := assign m.entries name value }

end Machine

end ExprShell
