/-
The printed form of a node. Numbers, booleans, strings without a double quote and quoted
lists of these print as text that reads back to an equal node: a quoted list opens with
`'[` where it stands alone and with `[` inside other quoted data.
-/
import ExprShell.Node.Basic

namespace ExprShell.Node

/-- Texts with single spaces between them. -/
def spaced (texts : List String) : String :=
  " ".intercalate texts

mutual

/-- Printed form of a node, `inside` quoted data or not. -/
def write (inside : Bool) : Node → String
  | .string _ text => "\"" ++ text ++ "\""
  | .number _ n => n.text
  | .boolean _ b => if b then "true" else "false"
  | .list s items =>
    if s.quoted then
      (if inside then "[" else "'[") ++ writeItems true items ++ "]"
    else
      "(" ++ writeItems false items ++ ")"
  | .function _ params body => "(" ++ spaced params ++ ") => " ++ writeBody body
  | .operator _ name => name
  | .identifier _ name => name
  | .command _ argv => "<command " ++ spaced argv ++ ">"
  | .commandResult _ status => "<exit " ++ toString status ++ ">"
  | .error _ message => "<error: " ++ message ++ ">"
  | .rawAst _ node => "<ast " ++ write false node ++ ">"
  | .defunc _ name => "<procedure " ++ name ++ ">"

/-- Items with single spaces between them. -/
def writeItems (inside : Bool) : List Node → String
  | [] => ""
  | [n] => write inside n
  | n :: m :: rest => write inside n ++ " " ++ writeItems inside (m :: rest)

/-- A single expression as it is, any other number of them as a block. -/
def writeBody : List Node → String
  | [] => "\x7b \x7d"
  | [n] => write false n
  | n :: m :: rest => "\x7b " ++ write false n ++ "; " ++ writeStatements (m :: rest) ++ "\x7d"

/-- Expressions, each with its terminator. -/
def writeStatements : List Node → String
  | [] => ""
  | n :: rest => write false n ++ "; " ++ writeStatements rest

end

/-- Printed form of a node that stands alone. -/
def display (n : Node) : String :=
  n.write false

/-- Text of a node for output and for program arguments: strings and names as they are,
everything else in printed form. -/
def plain : Node → String
  | .string _ text => text
  | .identifier _ name => name
  | .operator _ name => name
  | n => n.display

/-- Plain texts of several nodes, a space between each two. -/
def render (args : List Node) : String :=
  spaced (args.map plain)

end ExprShell.Node
