/-
The parts of expressions that take no recursion: atoms, call heads and parameter lists.
-/
import ExprShell.Reader.Parsed

namespace ExprShell.Reader

/-- A name as it is read at a depth. -/
def nameAt (depth : Nat) (name : String) : Node :=
  .identifier { depth := depth } name

/-- The operator of a call as it is read at a depth. -/
def operatorAt (depth : Nat) (name : String) : Node :=
  .operator { depth := depth } name

/-- A call as it is read at a depth. -/
def callAt (depth : Nat) (items : List Node) : Node :=
  .list { depth := depth } items

/-- A branch as it is read at a depth. -/
def branchAt (depth : Nat) (pattern body : Node) : Node :=
  .list { label := "branch", depth := depth } [pattern, body]

/-- The text of a string literal, without its quotes. -/
def unquoted (text : String) : String :=
  String.ofList (text.toList.drop 1).dropLast

/-- The node of a word: a number, a string, a boolean, an escaped name or a name. -/
def atom (depth : Nat) (t : Token) : Except SyntaxCause Node :=
  if t.isNumber then
    match Number.ofLiteral? t.text with
    | some n => .ok (.number { depth := depth } n)
    | none => .error (.outOfRange t.text)
  else if t.isString then .ok (.string { depth := depth } (unquoted t.text))
  else if t.text == "true" then .ok (.boolean { depth := depth } true)
  else if t.text == "false" then .ok (.boolean { depth := depth } false)
  else if t.isEscape then
    .ok (.identifier { depth := depth, quoted := true } (String.ofList (t.text.toList.drop 1)))
  else .ok (nameAt depth t.text)

/-- The items of a call, the head made an operator. A head is a name, a function literal, or
quoted data with variables for the environment of a command. -/
def callItems : List Node → Except SyntaxCause (List Node)
  | [] => .error .emptyCall
  | head :: args =>
    match head with
    | .identifier s name =>
      if s.quoted then .error (.badHead head) else .ok (.operator s name :: args)
    | .function .. => .ok (head :: args)
    | .list s _ => if s.quoted then .ok (head :: args) else .error (.badHead head)
    | _ => .error (.badHead head)

/-- The names of a parameter list. -/
def paramNames : List Node → Except SyntaxCause (List String)
  | [] => .ok []
  | n :: rest =>
    match n with
    | .identifier s name =>
      if s.quoted then .error (.badParameter n)
      else (paramNames rest).map (name :: ·)
    | _ => .error (.badParameter n)

/-- A name stands alone, and starts no call, at the end of the input and before a closer or
a bar. -/
def standsAlone : List Token → Bool
  | [] => true
  | next :: _ => next.isCloser || next.text == "|"

/-- The items of a binding as they are read at a depth. -/
def letItems (depth : Nat) (isGlobal : Bool) (name : String) (value : Node) : List Node :=
  operatorAt depth "let" ::
    ((if isGlobal then [nameAt depth "global"] else []) ++ [nameAt depth name, value])

/-- Takes off the word `global` of a constant definition; before `=` it is a name like any
other. -/
def skipGlobal : List Token → Bool × List Token
  | g :: n :: rest =>
    if g.text == "global" && n.text != "=" then (true, n :: rest) else (false, g :: n :: rest)
  | ts => (false, ts)

theorem length_skipGlobal_le (ts : List Token) : (skipGlobal ts).2.length ≤ ts.length := by
  unfold skipGlobal
  split
  · split <;> simp
  · exact Nat.le_refl _

end ExprShell.Reader
