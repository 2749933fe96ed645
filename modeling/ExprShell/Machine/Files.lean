/-
A tree of files. Paths are walked name by name from a directory, which every name but the last
has to lead to; there are no links. What cannot be done is a `Refusal`, in the words of the
system.
-/

namespace ExprShell.Machine

/-- Why the system refuses. -/
inductive Refusal where
  | notFound
  | badFormat
  | denied
  | notDirectory
  | isDirectory
  | nameTooLong
  | nulInName
  | nulInData
  | notText
  deriving Inhabited, DecidableEq, Repr

def Refusal.message : Refusal → String
  | notFound => "No such file or directory (os error 2)"
  | badFormat => "Exec format error (os error 8)"
  | denied => "Permission denied (os error 13)"
  | notDirectory => "Not a directory (os error 20)"
  | isDirectory => "Is a directory (os error 21)"
  | nameTooLong => "File name too long (os error 36)"
  | nulInName => "file name contained an unexpected NUL byte"
  | nulInData => "nul byte found in provided data"
  | notText => "stream did not contain valid UTF-8"

/-- What a path leads to. -/
inductive Entry where
  | directory
  | file (content : ByteArray) (executable : Bool)
  deriving Inhabited

/-- A place in the tree: the names that lead to it from the root. -/
abbrev Location := List String

/-- The entries below the root. -/
abbrev Files := List (Location × Entry)

namespace Files

/-- The entry at a place; the root is a directory. -/
def entry? (files : Files) (place : Location) : Option Entry :=
  if place.isEmpty then some .directory else List.lookup place files

/-- The tree with directories made along a path. -/
def makeDirectories (files : Files) (below : Location) : Location → Files
  | [] => files
  | name :: rest =>
    let here := below ++ [name]
    let files := if (files.entry? here).isSome then files else (here, .directory) :: files
    makeDirectories files here rest

/-- The tree with an entry added, and the directories above it. -/
def add (files : Files) (place : Location) (entry : Entry) : Files :=
  (place, entry) :: files.makeDirectories [] place.dropLast

/-- The names of a path. -/
def names (path : String) : List String :=
  (path.splitOn "/")

/-- The longest name, in bytes. -/
def maxName : Nat := 255

/-- Walks along names from a place. -/
def walk (files : Files) (place : Location) : List String → Except Refusal Location
  | [] => .ok place
  | name :: rest =>
    match files.entry? place with
    | none => .error .notFound
    | some (.file ..) => .error .notDirectory
    | some .directory =>
      if name.isEmpty || name == "." then walk files place rest
      else if name == ".." then walk files place.dropLast rest
      else if maxName < name.utf8ByteSize then .error .nameTooLong
      else walk files (place ++ [name]) rest

/-- The place that a path leads to from a working directory; it need not exist. -/
def locate (files : Files) (directory : Location) (path : String) : Except Refusal Location :=
  if path.toList.contains '\x00' then .error .nulInName
  else if path.isEmpty then .error .notFound
  else if 4096 ≤ path.utf8ByteSize then .error .nameTooLong
  else files.walk (if path.startsWith "/" then [] else directory) (names path)

/-- The entry that a path leads to. -/
def get (files : Files) (directory : Location) (path : String) : Except Refusal Entry := do
  let place ← files.locate directory path
  match files.entry? place with
  | some entry => return entry
  | none => throw .notFound

/-- The path of a place. -/
def path (place : Location) : String :=
  "/" ++ "/".intercalate place

end Files

end ExprShell.Machine
