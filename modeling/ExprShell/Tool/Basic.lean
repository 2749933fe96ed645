/-
The standard tools: procedures that come with the shell and take evaluated arguments. A tool
has a name, a description, and, unless it takes any number of arguments, an arity that is
checked before it runs. These are all the tools there are: a shell is given a list of them, all
of them as a rule, and none of its own making.
-/
import ExprShell.Tool.Arithmetic

namespace ExprShell

/-- The standard tools. -/
inductive Tool where
  | arithmetic (op : Operation)
  | comparison (c : Comparison)
  | equal
  | notEqual
  | not
  | list
  | head
  | tail
  | cons
  | length
  | nth
  | append
  | reverse
  | str
  | concat
  | split
  | join
  | upper
  | lower
  | trim
  | print
  | println
  | toJson
  | fromJson
  | cd
  | pwd
  | getenv
  | setenv
  | which
  | unset
  | vars
  deriving Inhabited, DecidableEq, Repr

namespace Tool

def name : Tool → String
  | arithmetic op => op.symbol
  | comparison c => c.symbol
  | equal => "="
  | notEqual => "!="
  | not => "not"
  | list => "list"
  | head => "hd"
  | tail => "tl"
  | cons => "cons"
  | length => "len"
  | nth => "nth"
  | append => "append"
  | reverse => "reverse"
  | str => "str"
  | concat => "concat"
  | split => "split"
  | join => "join"
  | upper => "upper"
  | lower => "lower"
  | trim => "trim"
  | print => "print"
  | println => "println"
  | toJson => "to-json"
  | fromJson => "from-json"
  | cd => "cd"
  | pwd => "pwd"
  | getenv => "getenv"
  | setenv => "setenv"
  | which => "which"
  | unset => "unset"
  | vars => "vars"

def description : Tool → String
  | arithmetic .add => "Sum of the arguments"
  | arithmetic .sub => "Difference, or negation of a single argument"
  | arithmetic .mul => "Product of the arguments"
  | arithmetic .div => "Integer quotient, truncated toward zero"
  | arithmetic .rem => "Remainder of integer division"
  | comparison _ => "Compares two numbers or two strings"
  | equal | notEqual => "Value equality"
  | not => "Logical negation"
  | list => "Creates a list from its arguments"
  | head => "First element of a list"
  | tail => "List without its first element"
  | cons => "Prepends an element to a list"
  | length => "Length of a list or string"
  | nth => "Element at a zero-based index"
  | append => "Concatenates lists"
  | reverse => "Reverses a list"
  | str => "Converts a value to a string"
  | concat => "Concatenates values into one string"
  | split => "Splits a string into a list of strings"
  | join => "Joins list elements with a separator"
  | upper | lower => "Changes the case of a string"
  | trim => "Trims whitespace"
  | print | println => "Prints values to stdout"
  | toJson => "Serializes a value to JSON text"
  | fromJson => "Parses JSON text into a value"
  | cd => "Changes the working directory"
  | pwd => "Current working directory"
  | getenv => "Reads a process environment variable"
  | setenv => "Sets a process environment variable"
  | which => "Locates an executable on the search path"
  | unset => "Removes a variable from the current scope"
  | vars => "Lists visible variables and constants"

/-- The exact number of arguments; `none` where any number goes. -/
def arity? : Tool → Option Nat
  | arithmetic _ | list | append | concat | print | println | cd => none
  | pwd | vars => some 0
  | not | head | tail | length | reverse | str | upper | lower | trim | toJson | fromJson
  | getenv | which | unset => some 1
  | comparison _ | equal | notEqual | cons | nth | split | join | setenv => some 2

/-- All tools. -/
def standard : List Tool :=
  [arithmetic .add, arithmetic .sub, arithmetic .mul, arithmetic .div, arithmetic .rem,
    comparison .lt, comparison .gt, comparison .le, comparison .ge, equal, notEqual, not,
    list, head, tail, cons, length, nth, append, reverse,
    str, concat, split, join, upper, lower, trim, print, println, toJson, fromJson,
    cd, pwd, getenv, setenv, which, unset, vars]

theorem mem_standard (t : Tool) : t ∈ standard := by
  cases t with
  | arithmetic op => cases op <;> simp [standard]
  | comparison c => cases c <;> simp [standard]
  | _ => simp [standard]

/-- The tool of a name, if it is among the given ones. -/
def find? (tools : List Tool) (name : String) : Option Tool :=
  tools.find? (·.name == name)

end Tool

end ExprShell
