/-
Names with a meaning of their own in calls. A form sees its arguments unevaluated; a builtin
gets values, but needs the evaluator to work on them.
-/

namespace ExprShell

/-- Special forms. -/
inductive Form where
  | pipeline
  | binding
  | conditional
  | substitution
  | clauses
  | selection
  | hereString
  | defined
  | conjunction
  | disjunction
  deriving Inhabited, DecidableEq, Repr

namespace Form

def name : Form → String
  | pipeline => "->"
  | binding => "let"
  | conditional => "if"
  | substitution => "$"
  | clauses => "cond"
  | selection => "match"
  | hereString => "<<<"
  | defined => "defined"
  | conjunction => "and"
  | disjunction => "or"

def ofName? : String → Option Form
  | "->" => some pipeline
  | "let" => some binding
  | "if" => some conditional
  | "$" => some substitution
  | "cond" => some clauses
  | "match" => some selection
  | "<<<" => some hereString
  | "defined" => some defined
  | "and" => some conjunction
  | "or" => some disjunction
  | _ => none

/-- A form is found by its name. -/
@[simp] theorem ofName?_name (f : Form) : ofName? f.name = some f := by
  cases f <;> rfl

end Form

/-- Builtins of the evaluator. -/
inductive Builtin where
  | sequence
  | eval
  | parse
  | load
  | map
  | filter
  | apply
  | typeof
  | exit
  deriving Inhabited, DecidableEq, Repr

namespace Builtin

def name : Builtin → String
  | sequence => "do"
  | eval => "eval"
  | parse => "parse"
  | load => "load"
  | map => "map"
  | filter => "filter"
  | apply => "apply"
  | typeof => "typeof"
  | exit => "exit"

def ofName? : String → Option Builtin
  | "do" => some sequence
  | "eval" => some eval
  | "parse" => some parse
  | "load" => some load
  | "map" => some map
  | "filter" => some filter
  | "apply" => some apply
  | "typeof" => some typeof
  | "exit" => some exit
  | _ => none

/-- A builtin is found by its name. -/
@[simp] theorem ofName?_name (b : Builtin) : ofName? b.name = some b := by
  cases b <;> rfl

end Builtin

end ExprShell
