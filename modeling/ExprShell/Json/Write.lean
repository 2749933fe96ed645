/-
Values to JSON text and back. Strings, numbers, booleans and lists have a JSON text, which is
compact; reading it gives an equal value in which every list is quoted.
-/
import ExprShell.Json.Read
import ExprShell.Node.Access

namespace ExprShell

namespace Json

/-- A digit of a hexadecimal escape. -/
def hexDigit (n : Nat) : Char :=
  if n < 10 then Char.ofNat ('0'.toNat + n) else Char.ofNat ('a'.toNat + n - 10)

/-- A character inside a string. -/
def escaped (c : Char) : List Char :=
  match c with
  | '"' => ['\\', '"']
  | '\\' => ['\\', '\\']
  | '\x08' => ['\\', 'b']
  | '\t' => ['\\', 't']
  | '\n' => ['\\', 'n']
  | '\x0c' => ['\\', 'f']
  | '\r' => ['\\', 'r']
  | c =>
    if c.toNat < 0x20 then
      ['\\', 'u', '0', '0', hexDigit (c.toNat / 16), hexDigit (c.toNat % 16)]
    else [c]

/-- A text as a JSON string. -/
def quote (text : String) : String :=
  String.ofList ('"' :: text.toList.flatMap escaped ++ ['"'])

mutual

/-- The value of a JSON value; null, objects and floats have none. -/
def toNode : Json → Except Fault Node
  | null => .error (.mistyped "JSON data value" "null")
  | object => .error (.mistyped "JSON data value" "object")
  | float => .error (.mistyped "integer" "float")
  | bool b => .ok (.ofBool b)
  | number n => .ok (.ofNumber n)
  | string text => .ok (.ofString text)
  | array items => do
    let nodes ← toNodes items
    return .data nodes

/-- The values of several JSON values. -/
def toNodes : List Json → Except Fault (List Node)
  | [] => .ok []
  | j :: rest => do
    let n ← toNode j
    let ns ← toNodes rest
    return n :: ns

end

end Json

namespace Node

mutual

/-- The JSON text of a value. -/
def toJson : Node → Except Fault String
  | .string _ text => .ok (Json.quote text)
  | .boolean _ b => .ok (if b then "true" else "false")
  | .number _ n => .ok n.text
  | .list _ items => do
    let texts ← itemsToJson items
    return "[" ++ ",".intercalate texts ++ "]"
  | n => .error (.wrongKind "string, number, boolean or list" n)

/-- The JSON texts of several values. -/
def itemsToJson : List Node → Except Fault (List String)
  | [] => .ok []
  | n :: rest => do
    let text ← n.toJson
    let texts ← itemsToJson rest
    return text :: texts

end

/-- The value that a JSON text denotes. -/
def ofJson (text : String) : Except Fault Node :=
  match Json.parse text with
  | .ok j => j.toNode
  | .error flaw => .error (.invalidArguments "from-json" (.badJson flaw))

end Node

end ExprShell
