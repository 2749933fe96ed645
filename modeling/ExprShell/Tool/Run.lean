/-
What the tools do. Most of them only look at their arguments; those of the shell itself print,
change the working directory, read and set variables, look for programs, or look at the
current scope.
-/
import ExprShell.Eval.Basic
import ExprShell.Json.Write
import ExprShell.Text.Case
import ExprShell.Tool.Basic

namespace ExprShell.Tool

/-! ## Lists -/

/-- The first element and the others of a list that must not be empty. -/
def uncons (tool : Tool) (n : Node) : Except Fault (Node × List Node) := do
  match ← n.asList with
  | first :: rest => return (first, rest)
  | [] => throw (.mistyped s!"a non-empty list for {tool.name}" "empty list")

/-- The element at an index. -/
def elementAt (n index : Node) : Except Fault Node := do
  let items ← n.asList
  let i ← index.asNumber
  match i.toUnsigned?.bind (fun i => items[i.toNat]?) with
  | some item => return item
  | none => throw (.invalidArguments nth.name (.indexOutOfRange i items.length))

/-- The elements of several lists, one after the other. -/
def concatLists : List Node → Except Fault (List Node)
  | [] => .ok []
  | n :: rest => do
    let items ← n.asList
    let others ← concatLists rest
    return items ++ others

/-- The number of elements of a list, or of characters of a string. -/
def size : Node → Except Fault Nat
  | .list _ items => .ok items.length
  | .string _ text => .ok text.length
  | n => .error (.wrongKind "list or string" n)

/-! ## Strings -/

/-- The pieces of a text between separators, or its words if the separator is empty. -/
def splitText (text separator : String) : List String :=
  if separator.isEmpty then Text.words text else Text.pieces text separator

/-- The list of strings that a text splits into. -/
def splitNode (text separator : Node) : Except Fault Node := do
  let text ← text.asString
  let separator ← separator.asString
  return .data ((splitText text separator).map .ofString)

/-- The text of the elements of a list with a separator between each two. -/
def joinNode (items separator : Node) : Except Fault Node := do
  let items ← items.asList
  let separator ← separator.asString
  return .ofString (Text.join separator (items.map Node.plain))

/-! ## Tools that only look at their arguments -/

/-- The value of a tool that needs nothing but its arguments; `none` for the other tools and
for arguments that are not there. -/
def pureValue? : Tool → List Node → Option (Except Fault Node)
  | arithmetic op, args => some (op.apply args)
  | comparison c, [a, b] => some (c.apply a b)
  | equal, [a, b] => some (.ok (.ofBool (a.same b)))
  | notEqual, [a, b] => some (.ok (.ofBool (!a.same b)))
  | not, [a] => some (.ok (.ofBool (!a.isTruthy)))
  | list, args => some (.ok (.data args))
  | head, [l] => some ((uncons head l).map (·.1))
  | tail, [l] => some ((uncons tail l).map fun p => .data p.2)
  | cons, [a, l] => some (l.asList.map fun items => .data (a :: items))
  | length, [a] => some ((size a).map fun n => .ofInt64 (Int64.ofNat n))
  | nth, [l, i] => some (elementAt l i)
  | append, args => some ((concatLists args).map .data)
  | reverse, [l] => some (l.asList.map fun items => .data items.reverse)
  | str, [a] => some (.ok (.ofString a.plain))
  | concat, args => some (.ok (.ofString (String.join (args.map Node.plain))))
  | split, [text, separator] => some (splitNode text separator)
  | join, [items, separator] => some (joinNode items separator)
  | upper, [a] => some (a.asString.map fun text => .ofString (Text.upper text))
  | lower, [a] => some (a.asString.map fun text => .ofString (Text.lower text))
  | trim, [a] => some (a.asString.map fun text => .ofString (Text.trim text))
  | toJson, [a] => some (a.toJson.map .ofString)
  | fromJson, [a] => some (a.asString.bind Node.ofJson)
  | _, _ => none

/-! ## Tools of the shell -/

variable {σ : Type}

/-- Changes the host, unless it refuses for a reason that makes a fault. -/
def changeHost (change : σ → Except String σ) (fault : String → Fault) : Eval σ Node := do
  match ← Eval.askHost change with
  | .ok next =>
    Eval.modifyHost fun _ => next
    return .status 0
  | .error reason => Eval.fail (fault reason)

/-- Changes to a directory. -/
def enterDirectory (host : Host σ) (path : String) : Eval σ Node :=
  changeHost (host.changeDirectory path) (.process cd.name)

/-- Changes to a directory, or, without an argument, to the one that `HOME` names. -/
def changeDirectory (host : Host σ) (args : List Node) : Eval σ Node := do
  match args with
  | [] =>
    match ← Eval.askHost (host.valueOf? · "HOME") with
    | some path => enterDirectory host path
    | none => Eval.fail (.invalidArguments cd.name .homeNotSet)
  | [path] => enterDirectory host path.plain
  | args => Eval.fail (.arity cd.name 1 args.length)

def workingDirectory (host : Host σ) : Eval σ Node := do
  match ← Eval.askHost host.workingDirectory with
  | .ok path => return .ofString path
  | .error reason => Eval.fail (.process pwd.name reason)

def readVariable (host : Host σ) (name : String) : Eval σ Node := do
  match ← Eval.askHost (host.valueOf? · name) with
  | some value => return .ofString value
  | none => return .ofBool false

/-- The character that cannot stand in variables and arguments. -/
def hasNul (text : String) : Bool :=
  text.toList.contains '\x00'

/-- Sets a variable; its name must not be empty or hold a sign of equality. -/
def writeVariable (host : Host σ) (name value : String) : Eval σ Node :=
  if name.isEmpty || name.toList.contains '=' || hasNul name then
    Eval.fail (.invalidArguments setenv.name (.badVariableName name))
  else if hasNul value then Eval.fail (.invalidArguments setenv.name .nulInValue)
  else do
    Eval.modifyHost (host.setVariable name value)
    return .status 0

def locate (host : Host σ) (searchPath : List String) (name : String) : Eval σ Node := do
  match ← Eval.askHost (host.locate · searchPath name) with
  | some path => return .ofString path
  | none => return .ofBool false

/-- Writes a text for one of the tools that print. -/
def write (host : Host σ) (tool : Tool) (text : String) : Eval σ Node :=
  changeHost (host.print text) fun reason => .runtime (.unwritable tool.name reason)

/-- Drops a binding from the current scope. -/
def unbind (name : String) : Eval σ Node := do
  let env ← Eval.env
  Eval.modifyEnv (·.unbind name)
  return .ofBool (env.current.contains name)

/-- The names visible here. -/
def listNames : Eval σ Node := do
  let env ← Eval.env
  return .data (env.visibleNames.map .ofString)

/-- Runs a tool on arguments whose number was checked. -/
def run (host : Host σ) (searchPath : List String) (tool : Tool) (args : List Node) :
    Eval σ Node :=
  match tool, args with
  | print, args => write host print (Node.render args)
  | println, args => write host println (Node.render args ++ "\n")
  | cd, args => changeDirectory host args
  | pwd, [] => workingDirectory host
  | getenv, [name] => readVariable host name.plain
  | setenv, [name, value] => writeVariable host name.plain value.plain
  | which, [name] => locate host searchPath name.plain
  | unset, [name] => unbind name.plain
  | vars, [] => listNames
  | tool, args =>
    match tool.pureValue? args with
    | some value => Eval.ofExcept value
    | none => Eval.stuck

/-- Runs a tool, its arity checked first. -/
def call (host : Host σ) (searchPath : List String) (tool : Tool) (args : List Node) :
    Eval σ Node :=
  match tool.arity? with
  | some n =>
    if args.length = n then tool.run host searchPath args
    else Eval.fail (.arity tool.name n args.length)
  | none => tool.run host searchPath args

end ExprShell.Tool
