/-
Small scripts for the system's shell: simple commands, assignments and loops. A word is a
sequence of parts, some of which are filled in when the script runs.
-/

namespace ExprShell.Script

/-- A term of a sum: a number or the value of a variable, to be added or taken away. -/
structure Term where
  negative : Bool
  operand : String
  deriving Inhabited, DecidableEq, Repr

/-- A part of a word. A value that is not quoted is cut into fields at blanks. -/
inductive Part where
  | text (s : String)
  | parameter (name : String) (quoted : Bool)
  /-- All arguments, a field for each. -/
  | arguments (quoted : Bool)
  | sum (terms : List Term)
  deriving Inhabited, DecidableEq, Repr

/-- A word of a command. -/
abbrev Word := List Part

/-- The text of a word that has nothing to fill in. -/
def Word.literal? : Word → Option String
  | [.text s] => some s
  | _ => none

/-- The name and value of a word that assigns a variable. -/
def Word.assignment? (w : Word) : Option (String × Word) :=
  match w with
  | .text s :: rest =>
    match s.toList.span (· != '=') with
    | (name, _ :: value) =>
      let isName := match name with
        | [] => false
        | c :: _ => !c.isDigit && name.all fun c => c.isAlphanum || c == '_'
      let start : Word := if value.isEmpty then [] else [.text (String.ofList value)]
      if isName then some (String.ofList name, start ++ rest) else none
    | _ => none
  | _ => none

/-- Commands of a script. -/
inductive Command where
  /-- Assignments, then words of which the first is the name of the command. -/
  | simple (line : Nat) (assignments : List (String × Word)) (words : List Word)
  | forEach (name : String) (words : List Word) (body : List Command)
  /-- Repeats the body as long as the test succeeds. -/
  | repeatWhile (test body : List Command)
  deriving Inhabited, Repr

end ExprShell.Script
