/-
Running scripts. A run reads and writes octets and ends with a status, or by a signal. Loops
go on as long as their test succeeds, up to a bound on the rounds of each; a script that
reaches it is stopped.
-/
import ExprShell.Script.Read

namespace ExprShell.Script

/-- How a run ended early. -/
inductive Ending where
  | exit (status : Nat)
  | signal
  deriving Inhabited, DecidableEq, Repr

/-- A run. -/
structure Run where
  /-- The path under which the script was started. -/
  name : String
  args : List String
  /-- Values of variables, the latest first. -/
  bindings : List (String × String)
  /-- Octets still to be read. -/
  input : List Char
  output : String := ""
  errors : String := ""
  /-- Status of the last command. -/
  status : Nat := 0
  ending : Option Ending := none
  deriving Inhabited, Repr

namespace Run

/-! ## Values -/

/-- The number of the process, as the script itself sees it. -/
def processNumber : String := "2"

def valueOf? (r : Run) (name : String) : Option String :=
  List.lookup name r.bindings

def set (r : Run) (name value : String) : Run :=
  { r with bindings := (name, value) :: r.bindings }

/-- The value of a parameter, empty if it is not set. -/
def parameter (r : Run) (name : String) : String :=
  match name with
  | "$" => processNumber
  | "?" => toString r.status
  | "#" => toString r.args.length
  | "0" => r.name
  | name =>
    match name.toNat? with
    | some n => (r.args[n - 1]?).getD ""
    | none => (r.valueOf? name).getD ""

/-- A number, or the value of a variable; what is neither counts as zero. -/
def operand (r : Run) (text : String) : Int :=
  match text.toInt? with
  | some n => n
  | none => ((r.parameter text).toInt?).getD 0

def sum (r : Run) (terms : List Term) : Int :=
  terms.foldl (fun n t => if t.negative then n - r.operand t.operand else n + r.operand t.operand)
    0

/-- The value of a word as one text. -/
def textOf (r : Run) (w : Word) : String :=
  String.join (w.map fun
    | .text s => s
    | .parameter name _ => r.parameter name
    | .arguments _ => " ".intercalate r.args
    | .sum terms => toString (r.sum terms))

/-! ## Fields -/

/-- Fields that are complete, in reverse, and the one that is being built. -/
structure Fields where
  done : List String := []
  current : Option String := none
  deriving Inhabited, Repr

namespace Fields

def extend (f : Fields) (s : String) : Fields :=
  { f with current := some (f.current.getD "" ++ s) }

def close (f : Fields) : Fields :=
  match f.current with
  | some s => { done := s :: f.done, current := none }
  | none => f

/-- Adds a value that is cut at blanks. -/
def split (f : Fields) (value : String) : Fields :=
  value.toList.foldl
    (fun f c =>
      if c == ' ' || c == '\t' || c == '\n' then f.close else f.extend (String.singleton c)) f

/-- Adds values of which each ends a field but the last. -/
def spread (f : Fields) : List String → Fields
  | [] => f
  | [s] => f.extend s
  | s :: rest => ((f.extend s).close).spread rest

end Fields

/-- The fields of a word. A word made of the quoted arguments alone has no field if there are
no arguments. -/
def fieldsOf (r : Run) (w : Word) : List String :=
  let lone := w.all fun
    | .arguments _ => true
    | .text s => s.isEmpty
    | _ => false
  let hasArguments := w.any fun
    | .arguments _ => true
    | _ => false
  let parts := if lone && hasArguments then w.filter (· != .text "") else w
  let fields := parts.foldl
    (fun (f : Fields) part =>
      match part with
      | .text s => f.extend s
      | .parameter name quoted =>
        if quoted then f.extend (r.parameter name) else f.split (r.parameter name)
      | .arguments _ => f.spread r.args
      | .sum terms => f.extend (toString (r.sum terms)))
    {}
  fields.close.done.reverse

/-! ## Escapes -/

def isOctal (c : Char) : Bool :=
  '0' ≤ c && c ≤ '7'

/-- The octet of octal digits. -/
def octet (digits : List Char) : Char :=
  Char.ofNat (digits.foldl (fun n c => 8 * n + (c.toNat - '0'.toNat)) 0 % 256)

/-- A character after a backslash that has a meaning there. -/
def escape? : Char → Option Char
  | '\\' => some '\\'
  | 'a' => some '\x07'
  | 'b' => some '\x08'
  | 'f' => some '\x0c'
  | 'n' => some '\n'
  | 'r' => some '\r'
  | 't' => some '\t'
  | 'v' => some '\x0b'
  | _ => none

/-- The text that an escaped text stands for, and whether output goes on after it. An octal
number has three digits at most, and three more after a zero where `longZero`. -/
def unescape (longZero : Bool) : List Char → List Char × Bool
  | [] => ([], true)
  | '\\' :: c :: rest =>
    if c == 'c' then ([], false)
    else if isOctal c then
      let digits := (rest.take (if longZero && c == '0' then 3 else 2)).takeWhile isOctal
      let (text, goesOn) := unescape longZero (rest.drop digits.length)
      (octet (c :: digits) :: text, goesOn)
    else
      match escape? c with
      | some e =>
        let (text, goesOn) := unescape longZero rest
        (e :: text, goesOn)
      | none =>
        let (text, goesOn) := unescape longZero (c :: rest)
        ('\\' :: text, goesOn)
  | c :: rest =>
    let (text, goesOn) := unescape longZero rest
    (c :: text, goesOn)
termination_by cs => cs.length
decreasing_by
  · simp only [List.length_drop, List.length_cons]; omega
  · simp only [List.length_cons]; omega
  · simp only [List.length_cons]; omega
  · simp only [List.length_cons]; omega

/-! ## Built-in commands -/

def write (r : Run) (cs : List Char) : Run :=
  { r with output := r.output ++ String.ofList cs, status := 0 }

/-- Says what is wrong with a command. -/
def complain (r : Run) (line : Nat) (message : String) (status : Nat) : Run :=
  { r with errors := r.errors ++ s!"{r.name}: {line}: {message}\n", status }

/-- Writes the arguments with spaces between them and a line break at the end. -/
def echo (r : Run) (args : List String) : Run :=
  let (args, close) := match args with
    | "-n" :: rest => (rest, [])
    | args => (args, ['\n'])
  let (text, goesOn) := unescape true (" ".intercalate args).toList
  r.write (if goesOn then text ++ close else text)

/-- Fills arguments into a format. -/
def fill : List Char → List String → List Char
  | [], _ => []
  | '%' :: '%' :: rest, args => '%' :: fill rest args
  | '%' :: 's' :: rest, args => (args.headD "").toList ++ fill rest args.tail
  | c :: rest, args => c :: fill rest args

def printf (r : Run) (line : Nat) (args : List String) : Run :=
  match args with
  | [] => r.complain line "printf: usage: printf format [arg ...]" 2
  | format :: args => r.write (fill (unescape false format.toList).1 args)

/-- A status from 0 to 255, taken from a decimal number. -/
def exitStatus? (text : String) : Option Nat :=
  match text.toNat? with
  | some n => if text.toList.all Char.isDigit && n ≤ 2147483647 then some (n % 256) else none
  | none => none

def exit (r : Run) (line : Nat) (args : List String) : Run :=
  match args with
  | [] => { r with ending := some (.exit r.status) }
  | word :: _ =>
    match exitStatus? word with
    | some status => { r with ending := some (.exit status) }
    | none =>
      { r.complain line s!"exit: Illegal number: {word}" 2 with ending := some (.exit 2) }

/-- Sends a signal, which only the script itself can receive. -/
def kill (r : Run) (line : Nat) (args : List String) : Run :=
  if args.getLast? = some processNumber then { r with ending := some .signal }
  else r.complain line "kill: No such process" 1

/-- Reads a line into variables: all of it into one if lines are not to be cut, word by word
otherwise. It fails if the input ends before the line does. -/
def readLine (r : Run) (whole : Bool) (args : List String) : Run :=
  let (line, rest) := r.input.span (· != '\n')
  let text := String.ofList (line.filter (· != '\x00'))
  let names := args.filter fun a => !a.startsWith "-"
  let values := if whole then [text] else (({} : Fields).split text).close.done.reverse
  let r := names.zipIdx.foldl
    (fun r (name, i) =>
      let value := if i + 1 = names.length then " ".intercalate (values.drop i)
        else (values[i]?).getD ""
      r.set name value)
    r
  { r with input := rest.drop 1, status := if rest.isEmpty then 1 else 0 }

/-- Runs a simple command. -/
def runSimple (r : Run) (line : Nat) (assignments : List (String × Word)) (words : List Word) :
    Run :=
  match words.flatMap r.fieldsOf with
  | [] =>
    { assignments.foldl (fun r (name, value) => r.set name (r.textOf value)) r with status := 0 }
  | command :: args =>
    match command with
    | "echo" => r.echo args
    | "printf" => r.printf line args
    | "exit" => r.exit line args
    | "kill" => r.kill line args
    | "read" => r.readLine (assignments.contains ("IFS", [])) args
    | "true" | ":" => { r with status := 0 }
    | "false" => { r with status := 1 }
    | command => r.complain line s!"{command}: not found" 127

/-! ## Commands -/

/-- Repeats a body as long as a test succeeds. -/
def loop (test body : Run → Run) : Nat → Run → Run
  | 0, r => { r with ending := some .signal }
  | rounds + 1, r =>
    let r := test r
    if r.ending.isSome then r
    else if r.status != 0 then { r with status := 0 }
    else
      let r := body r
      if r.ending.isSome then r else loop test body rounds r

mutual

/-- Runs a command, no loop for more than the given rounds. -/
def runCommand (rounds : Nat) : Command → Run → Run
  | .simple line assignments words, r => r.runSimple line assignments words
  | .forEach name words body, r =>
    (words.flatMap r.fieldsOf).foldl
      (fun r value => if r.ending.isSome then r else runAll rounds body (r.set name value))
      { r with status := 0 }
  | .repeatWhile test body, r => loop (runAll rounds test) (runAll rounds body) rounds r

/-- Runs commands in order until the script ends. -/
def runAll (rounds : Nat) : List Command → Run → Run
  | [], r => r
  | c :: rest, r =>
    let r := runCommand rounds c r
    if r.ending.isSome then r else runAll rounds rest r

end

/-- The status of a run that is over, -1 after a signal. -/
def finalStatus (r : Run) : Int :=
  match r.ending with
  | some (.exit status) => status
  | some .signal => -1
  | none => r.status

end Run

/-- A bound on the rounds of a loop that no reasonable script reaches. -/
def maxRounds : Nat := 10000000

/-- Runs the text of a script to its end. -/
def run (text : String) (start : Run) : Run :=
  Run.runAll maxRounds (read text) start

end ExprShell.Script
