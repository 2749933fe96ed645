/-
Expressions and values are one type of tree, `Node`: reading produces nodes, and
evaluation takes nodes to nodes. Every node carries a `Stamp` (a label, the depth at
which it was read, and whether it is quoted), which says how to treat the node but is
no part of its value: `Node.same` compares payloads only.
-/
import ExprShell.Number

namespace ExprShell

/-- What a node carries beside its payload. -/
structure Stamp where
  /-- A name for the node's role, mostly empty. -/
  label : String := ""
  /-- Nesting depth at which the node was read. -/
  depth : Nat := 0
  /-- A quoted node stands for itself and is never evaluated further. -/
  quoted : Bool := false
  deriving Inhabited, DecidableEq, Repr

/-- Expressions and values. -/
inductive Node where
  | string (stamp : Stamp) (text : String)
  | number (stamp : Stamp) (n : Number)
  | boolean (stamp : Stamp) (b : Bool)
  /-- A call when not quoted, data when quoted. -/
  | list (stamp : Stamp) (items : List Node)
  /-- A function literal; its body is evaluated in order. -/
  | function (stamp : Stamp) (params : List String) (body : List Node)
  /-- The name at the head of a call. -/
  | operator (stamp : Stamp) (name : String)
  /-- A name to be looked up, or a bare word. -/
  | identifier (stamp : Stamp) (name : String)
  /-- A program with its arguments. -/
  | command (stamp : Stamp) (argv : List String)
  /-- The exit status of a program. -/
  | commandResult (stamp : Stamp) (status : Int)
  /-- An error that became a value. -/
  | error (stamp : Stamp) (message : String)
  /-- An expression held back from evaluation. -/
  | rawAst (stamp : Stamp) (node : Node)
  /-- The name of a procedure that was just defined. -/
  | defunc (stamp : Stamp) (name : String)
  deriving Inhabited, Repr

/-- The kinds of node. -/
inductive Kind where
  | string
  | number
  | boolean
  | list
  | function
  | operator
  | identifier
  | command
  | commandResult
  | error
  | rawAst
  | defunc
  deriving Inhabited, DecidableEq, Repr

/-- The name of a kind, as programs and messages see it. -/
def Kind.name : Kind → String
  | string => "string"
  | number => "number"
  | boolean => "boolean"
  | list => "list"
  | function => "function"
  | operator => "operator"
  | identifier => "identifier"
  | command => "command"
  | commandResult => "command-result"
  | error => "error"
  | rawAst => "raw-ast"
  | defunc => "defunc"

namespace Node

/-! ## Building nodes -/

def ofString (text : String) : Node := .string {} text

def ofNumber (n : Number) : Node := .number {} n

def ofInt64 (n : Int64) : Node := .number {} (.int n)

def ofBool (b : Bool) : Node := .boolean {} b

/-- A list that is data. -/
def data (items : List Node) : Node := .list { quoted := true } items

/-- A list that is to be evaluated. -/
def call (items : List Node) : Node := .list {} items

def status (n : Int) : Node := .commandResult {} n

/-! ## Kind and stamp -/

def kind : Node → Kind
  | .string .. => .string
  | .number .. => .number
  | .boolean .. => .boolean
  | .list .. => .list
  | .function .. => .function
  | .operator .. => .operator
  | .identifier .. => .identifier
  | .command .. => .command
  | .commandResult .. => .commandResult
  | .error .. => .error
  | .rawAst .. => .rawAst
  | .defunc .. => .defunc

def stamp : Node → Stamp
  | .string s _ | .number s _ | .boolean s _ | .list s _ | .function s _ _ | .operator s _
  | .identifier s _ | .command s _ | .commandResult s _ | .error s _ | .rawAst s _
  | .defunc s _ => s

/-- The same payload under another stamp. -/
def withStamp (s : Stamp) : Node → Node
  | .string _ x => .string s x
  | .number _ x => .number s x
  | .boolean _ x => .boolean s x
  | .list _ x => .list s x
  | .function _ x y => .function s x y
  | .operator _ x => .operator s x
  | .identifier _ x => .identifier s x
  | .command _ x => .command s x
  | .commandResult _ x => .commandResult s x
  | .error _ x => .error s x
  | .rawAst _ x => .rawAst s x
  | .defunc _ x => .defunc s x

/-- The node as part of quoted data. -/
def quote (n : Node) : Node :=
  n.withStamp { n.stamp with quoted := true }

/-! ## Looking at a node -/

/-- What counts as true: all but `false`, zero, and empty strings and lists. -/
def isTruthy : Node → Bool
  | .string _ text => !text.isEmpty
  | .list _ items => !items.isEmpty
  | .number _ n => !n.isZero
  | .boolean _ b => b
  | _ => true

/-- The name of an identifier or operator. -/
def symbol? : Node → Option String
  | .identifier _ name | .operator _ name => some name
  | _ => none

def operatorName? : Node → Option String
  | .operator _ name => some name
  | _ => none

/-- The wildcard `_`. -/
def isWildcard : Node → Bool
  | .identifier _ name => name == "_"
  | _ => false

/-- A quoted list. -/
def isData : Node → Bool
  | .list s _ => s.quoted
  | _ => false

/-- Data that is not evaluated where it stands alone. -/
def isLiteral : Node → Bool
  | .number .. | .boolean .. | .string .. => true
  | .list s _ => s.quoted
  | _ => false

/-! ## Equality of values -/

mutual

/-- Equality of payloads: stamps are ignored at every level, and numbers compare by value. -/
def same : Node → Node → Bool
  | .string _ a, .string _ b => a == b
  | .number _ a, .number _ b => a.same b
  | .boolean _ a, .boolean _ b => a == b
  | .list _ a, .list _ b => sameAll a b
  | .function _ p a, .function _ q b => p == q && sameAll a b
  | .operator _ a, .operator _ b => a == b
  | .identifier _ a, .identifier _ b => a == b
  | .command _ a, .command _ b => a == b
  | .commandResult _ a, .commandResult _ b => a == b
  | .error _ a, .error _ b => a == b
  | .rawAst _ a, .rawAst _ b => same a b
  | .defunc _ a, .defunc _ b => a == b
  | _, _ => false

/-- Equality item by item. -/
def sameAll : List Node → List Node → Bool
  | [], [] => true
  | a :: as, b :: bs => same a b && sameAll as bs
  | _, _ => false

end

/-- A list has an item equal to the node. -/
def isIn (n : Node) (items : List Node) : Bool :=
  items.any (same · n)

end Node

end ExprShell
