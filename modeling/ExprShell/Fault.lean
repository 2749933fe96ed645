/-
Errors, as causes. A `Fault` says what went wrong and with what; `Fault.message` is the one
place that puts it into words, and `Fault.category` sorts faults into the families that the
command line reports.
-/
import ExprShell.Json.Flaw
import ExprShell.Node.Print
import ExprShell.Text.Quoted

namespace ExprShell

/-! ## Source text -/

/-- Why a text has no tokens. -/
inductive LexicalCause where
  /-- A double quote in the middle of a name or number. -/
  | quoteInside
  /-- A character other than a digit in the middle of a number. -/
  | strayCharacter (c : Char)
  /-- The text ends inside a string literal. -/
  | unterminatedString
  deriving Inhabited, DecidableEq, Repr

def LexicalCause.message : LexicalCause → String
  | quoteInside => "quote inside literal"
  | strayCharacter c => s!"character '{c}' in numeric literal"
  | unterminatedString => "unterminated string literal"

/-- A part of a form that has to follow. -/
inductive Expectation where
  | letName
  | letEquals
  | branchArrow
  | branchOrEnd (keyword : String)
  deriving Inhabited, DecidableEq, Repr

def Expectation.what : Expectation → String
  | letName => "identifier after 'let'"
  | letEquals => "'=' in let binding"
  | branchArrow => "'=>' after branch pattern"
  | branchOrEnd keyword => s!"'|' or ';' in {keyword}"

def Expectation.hint? : Expectation → Option String
  | letName => some "Binding syntax: let name = value;"
  | branchArrow => some "Branch syntax: | pattern => body"
  | letEquals | branchOrEnd _ => none

/-- Why a sequence of tokens is no expression. -/
inductive SyntaxCause where
  | unexpectedEnd
  | unexpected (text : String)
  | unexpectedInData (text : String)
  /-- The input ends before the closer of an opening delimiter. -/
  | unclosed (opener closer : String)
  /-- The input ends before the terminator of a form with branches. -/
  | unclosedForm (keyword : String)
  | mismatched (closer opener : String) (openLine : Nat) (expected : String)
  | emptyCall
  | badHead (found : Node)
  | badParameter (found : Node)
  | missingFunctionBody
  | missingTerminator (name : String)
  | missing (what : Expectation) (found : Option String)
  | missingLetValue
  | unterminatedLet
  | missingScrutinee
  | missingBranchBody
  | noBranches (keyword : String)
  | tooDeep (limit : Nat)
  | outOfRange (literal : String)
  deriving Inhabited, Repr

def SyntaxCause.message : SyntaxCause → String
  | unexpectedEnd => "unexpected end of input"
  | unexpected text => s!"unexpected '{text}'"
  | unexpectedInData text => s!"unexpected '{text}' in list literal"
  | unclosed opener closer => s!"unclosed '{opener}': expected '{closer}'"
  | unclosedForm keyword => s!"unclosed {keyword}: expected ';'"
  | mismatched closer opener openLine expected =>
    s!"mismatched '{closer}': '{opener}' opened at line {openLine} expects '{expected}'"
  | emptyCall => "empty function call"
  | badHead found =>
    s!"expected a procedure name at the head of a list-expression, found {found.display}"
  | badParameter found => s!"function parameters must be identifiers, found {found.display}"
  | missingFunctionBody => "function literal is missing its body"
  | missingTerminator name => s!"function call '{name}' is missing its terminating ';'"
  | missing what found =>
    let got := match found with
      | some text => s!"'{text}'"
      | none => "end of input"
    let help := match what.hint? with
      | some hint => s!"\n\nHelp: {hint}"
      | none => ""
    s!"expected {what.what}, found {got}{help}"
  | missingLetValue => "let binding is missing its value"
  | unterminatedLet => "let binding of a single token must end with ';'"
  | missingScrutinee => "match is missing its scrutinee"
  | missingBranchBody => "branch is missing its body"
  | noBranches keyword => s!"{keyword} requires at least one branch"
  | tooDeep limit => s!"nesting too deep (limit: {limit})"
  | outOfRange literal => s!"numeric literal {literal} out of range"

/-! ## Evaluation -/

/-- Why a procedure refuses its arguments. -/
inductive Misuse where
  | tooFew (least got : Nat)
  | exitStatus (status : Int)
  | indexOutOfRange (index : Number) (size : Nat)
  | unpairedOverrides (overrides : Node)
  | homeNotSet
  | badVariableName (name : String)
  | nulInValue
  | badJson (flaw : Json.Flaw)
  deriving Inhabited, Repr

def Misuse.message : Misuse → String
  | tooFew least got => s!"expected at least {least} arguments, got {got}"
  | exitStatus status => s!"exit status {status} is outside 0..=255"
  | indexOutOfRange index size => s!"index {index.text} out of range for list of {size}"
  | unpairedOverrides overrides => s!"{overrides.display} needs key/value pairs"
  | homeNotSet => "HOME is not set"
  | badVariableName name => s!"invalid variable name {Text.quoted name}"
  | nulInValue => "value contains a NUL byte"
  | badJson flaw => flaw.message

/-- Failures of a run that fit no narrower family. -/
inductive RunCause where
  | emptyCall
  | emptyPipeline
  | overridesWithoutCommand
  | constantInside (name procedure : String)
  | missingScrutinee
  | badBranch (elements : Nat)
  /-- A file could not be read, for a reason in the words of the system. -/
  | unreadable (reason : String)
  /-- What a tool prints could not be written. -/
  | unwritable (tool reason : String)
  deriving Inhabited, DecidableEq, Repr

def RunCause.message : RunCause → String
  | emptyCall => "empty function call"
  | emptyPipeline => "empty pipeline"
  | overridesWithoutCommand => "environment overrides without a command"
  | constantInside name procedure =>
    s!"let global {name} is only allowed at top level, not inside {procedure}"
  | missingScrutinee => "match requires a scrutinee"
  | badBranch elements => s!"branch must be a pattern and a body, found {elements} elements"
  | unreadable reason => reason
  | unwritable tool reason => s!"{tool}: {reason}"

/-- What went wrong. -/
inductive Fault where
  | lexical (line : Nat) (cause : LexicalCause)
  | syntactic (line : Nat) (cause : SyntaxCause)
  | unboundProcedure (name : String)
  | constantReassignment (name : String)
  /-- A value of the wrong kind; both sides are descriptions. -/
  | mistyped (expected got : String)
  | arity (name : String) (expected got : Nat)
  | invalidArguments (tool : String) (misuse : Misuse)
  | arithmeticOverflow (operator : String)
  | divisionByZero
  | process (command reason : String)
  | recursionLimit (limit : Nat)
  /-- A fault while loading a file. -/
  | load (file : String) (source : Fault)
  | runtime (cause : RunCause)
  deriving Inhabited, Repr

namespace Fault

/-- The wording of a fault. -/
def message : Fault → String
  | lexical line cause => s!"Lexical error at line {line}: {cause.message}"
  | syntactic line cause => s!"Syntax error at line {line}: {cause.message}"
  | unboundProcedure name => s!"Unbound procedure: {name}"
  | constantReassignment name => s!"Cannot reassign constant: {name}"
  | mistyped expected got => s!"Type error: expected {expected}, got {got}"
  | arity name expected got =>
    s!"Arity error: {name} expected {expected} arguments, got {got}"
  | invalidArguments tool misuse => s!"Invalid arguments for {tool}: {misuse.message}"
  | arithmeticOverflow operator => s!"Arithmetic overflow in {operator}"
  | divisionByZero => "Division by zero"
  | process command reason => s!"Process error: {command}: {reason}"
  | recursionLimit limit => s!"Recursion depth exceeded (limit: {limit})"
  | load file source => file ++ ": " ++ source.message
  | runtime cause => s!"Runtime error: {cause.message}"

/-- A node of the wrong kind. -/
def wrongKind (expected : String) (got : Node) : Fault :=
  mistyped expected got.kind.name

end Fault

/-- Families of faults. -/
inductive Category where
  | lexical
  | syntactic
  | binding
  | type
  | arity
  | process
  | runtime
  deriving Inhabited, DecidableEq, Repr

def Category.name : Category → String
  | lexical => "lexical"
  | syntactic => "syntax"
  | binding => "binding"
  | type => "type"
  | arity => "arity"
  | process => "process"
  | runtime => "runtime"

/-- The family of a fault; a fault in a loaded file keeps its own. -/
def Fault.category : Fault → Category
  | lexical .. => .lexical
  | syntactic .. => .syntactic
  | unboundProcedure _ | constantReassignment _ => .binding
  | mistyped .. | invalidArguments .. => .type
  | arity .. => .arity
  | process .. => .process
  | arithmeticOverflow _ | divisionByZero | recursionLimit _ | runtime _ => .runtime
  | load _ source => source.category

end ExprShell
