/-
Source text to tokens. The scanner reads one character at a time and is always between
tokens or inside a word, a number, a string or a comment. Blanks and delimiters end words
and numbers; inside a string everything up to the next double quote counts; a `#` between
tokens hides the rest of its line. A quote sign directly before `(` or `[` joins it.
-/
import ExprShell.Fault
import ExprShell.Token.Basic

namespace ExprShell

/-- Where the scanner is. Pending text is reversed and comes with the line it starts on. -/
inductive Scanner.Mode where
  | idle
  | word (pending : List Char) (start : Nat)
  | digits (pending : List Char) (start : Nat)
  | quote (pending : List Char) (start : Nat)
  | comment
  deriving Inhabited, DecidableEq, Repr

/-- A scanner: the text still to be read, the current line, the mode, and the tokens found
so far, the latest first. -/
structure Scanner where
  source : List Char
  line : Nat := 1
  mode : Scanner.Mode := .idle
  found : List Token := []
  deriving Inhabited, Repr

namespace Scanner

def ofString (source : String) : Scanner :=
  { source := source.toList }

/-- Characters that are always a token of their own. -/
def isDelimiter (c : Char) : Bool :=
  c ∈ ['(', ')', '[', ']', '\x7b', '\x7d', ';']

/-- Ends the pending token, if there is one. -/
def flush (s : Scanner) : Scanner :=
  match s.mode with
  | .word pending start | .digits pending start | .quote pending start =>
    { s with mode := .idle, found := ⟨String.ofList pending.reverse, start⟩ :: s.found }
  | .idle | .comment => { s with mode := .idle }

/-- Adds a token that is complete. -/
def push (s : Scanner) (text : List Char) : Scanner :=
  { s with found := ⟨String.ofList text, s.line⟩ :: s.found }

def nextLine (s : Scanner) : Scanner :=
  { s with line := s.line + 1 }

/-- A character inside a string. -/
def quoteStep (s : Scanner) (pending : List Char) (start : Nat) (c : Char) : Scanner :=
  let s := { s with mode := .quote (c :: pending) start }
  if c == '\n' then s.nextLine else if c == '"' then s.flush else s

/-- A character inside a comment. -/
def commentStep (s : Scanner) (c : Char) : Scanner :=
  if c == '\n' then { s with mode := .idle }.nextLine else s

/-- A double quote outside strings and comments. -/
def openQuote (s : Scanner) : Except Fault Scanner :=
  match s.mode with
  | .word _ start | .digits _ start | .quote _ start =>
    .error (.lexical start .quoteInside)
  | .idle | .comment => .ok { s with mode := .quote ['"'] s.line }

/-- A delimiter outside strings and comments. -/
def delimiterStep (s : Scanner) (c : Char) : Scanner :=
  match s.mode with
  | .word ['\''] start =>
    if c == '(' || c == '[' then { s with mode := .word [c, '\''] start }.flush
    else s.flush.push [c]
  | _ => s.flush.push [c]

/-- A digit outside strings and comments. -/
def digitStep (s : Scanner) (c : Char) : Scanner :=
  match s.mode with
  | .word pending start => { s with mode := .word (c :: pending) start }
  | .digits pending start => { s with mode := .digits (c :: pending) start }
  | _ => { s with mode := .digits [c] s.line }

/-- Any other character outside strings and comments. -/
def letterStep (s : Scanner) (c : Char) : Except Fault Scanner :=
  match s.mode with
  | .word pending start => .ok { s with mode := .word (c :: pending) start }
  | .digits _ start => .error (.lexical start (.strayCharacter c))
  | _ => .ok { s with mode := .word [c] s.line }

/-- A character outside strings and comments. -/
def plainStep (s : Scanner) (c : Char) : Except Fault Scanner :=
  if c == ' ' || c == '\t' || c == '\r' then .ok s.flush
  else if c == '\n' then .ok s.flush.nextLine
  else if c == '"' then s.openQuote
  else if c == '#' && s.mode == .idle then .ok { s with mode := .comment }
  else if isDelimiter c then .ok (s.delimiterStep c)
  else if c.isDigit then .ok (s.digitStep c)
  else s.letterStep c

/-- Reads one character. -/
def step (s : Scanner) (c : Char) : Except Fault Scanner :=
  match s.mode with
  | .quote pending start => .ok (s.quoteStep pending start c)
  | .comment => .ok (s.commentStep c)
  | _ => s.plainStep c

/-- Reads characters up to the first that cannot be read; the scanner is then left as it was
before that character. -/
def advance (s : Scanner) : List Char → Option Fault × Scanner
  | [] => (none, s)
  | c :: rest =>
    match s.step c with
    | .ok s => s.advance rest
    | .error fault => (some fault, s)

/-- Reads the whole source, which is then used up, and hands over the tokens. After a fault
the scanner keeps its tokens, mode and line. -/
def scan (s : Scanner) : Except Fault (List Token) × Scanner :=
  match { s with source := [] }.advance s.source with
  | (some fault, s) => (.error fault, s)
  | (none, s) =>
    match s.mode with
    | .quote _ start => (.error (.lexical start .unterminatedString), s)
    | _ => (.ok s.flush.found.reverse, { s.flush with found := [] })

end Scanner

/-- The tokens of a text. -/
def tokenize (source : String) : Except Fault (List Token) :=
  (Scanner.ofString source).scan.1

end ExprShell
