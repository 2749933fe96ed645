/-
Reading scripts. A text is cut into statements, each a list of words, by a machine that takes
one character at a time; the statements are then gathered into commands, with a stack of the
loops that are open.
-/
import ExprShell.Script.Basic

namespace ExprShell.Script

/-! ## Words -/

/-- Where in a text the reader stands. Inside an expansion, `quoted` says whether double
quotes stand around it. -/
inductive Mode where
  | blank
  | comment
  | bare
  | bareEscape
  | single
  | double
  | doubleEscape
  | dollar (quoted : Bool)
  | name (quoted : Bool) (read : List Char)
  | braced (quoted : Bool) (read : List Char)
  | parenthesis (quoted : Bool)
  | sum (quoted : Bool) (read : List Char)
  | sumEnd (quoted : Bool) (read : List Char)
  deriving Inhabited, Repr

/-- A statement with the line it stands on. -/
structure Statement where
  line : Nat
  words : List Word
  deriving Inhabited, Repr

/-- What was read so far; lists are reversed. -/
structure Progress where
  mode : Mode := .blank
  line : Nat := 1
  text : List Char := []
  parts : List Part := []
  words : List Word := []
  statements : List Statement := []
  deriving Inhabited, Repr

namespace Progress

def push (p : Progress) (c : Char) : Progress :=
  { p with text := c :: p.text }

/-- Ends a run of plain text. -/
def endText (p : Progress) : Progress :=
  if p.text.isEmpty then p
  else { p with text := [], parts := .text (String.ofList p.text.reverse) :: p.parts }

def addPart (p : Progress) (part : Part) : Progress :=
  let p := p.endText
  { p with parts := part :: p.parts }

def endWord (p : Progress) : Progress :=
  let p := p.endText
  { p with mode := .blank, parts := [], words := p.parts.reverse :: p.words }

def endStatement (p : Progress) : Progress :=
  if p.words.isEmpty then p
  else { p with words := [], statements := ⟨p.line, p.words.reverse⟩ :: p.statements }

/-- The mode around an expansion. -/
def around (quoted : Bool) : Mode :=
  if quoted then .double else .bare

/-- Marks that a word has started, also if it turns out empty. -/
def openQuote (p : Progress) (mode : Mode) : Progress :=
  { p.addPart (.text "") with mode }

/-- The terms of a sum. -/
def terms (read : List Char) : List Term :=
  let finish (negative : Bool) (operand : List Char) (done : List Term) : List Term :=
    if operand.isEmpty then done else ⟨negative, String.ofList operand.reverse⟩ :: done
  let (negative, operand, done) := read.foldl
    (fun (negative, operand, done) c =>
      if c == '+' || c == '-' then (c == '-', [], finish negative operand done)
      else if c == ' ' || c == '$' then (negative, operand, done)
      else (negative, c :: operand, done))
    (false, [], [])
  (finish negative operand done).reverse

def isNameChar (c : Char) : Bool :=
  c.isAlphanum || c == '_'

/-- Takes a character that stands outside quotes and expansions. -/
def takeBare (p : Progress) (c : Char) : Progress :=
  match c with
  | ' ' | '\t' => p.endWord
  | '\n' =>
    let p := p.endWord.endStatement
    { p with line := p.line + 1 }
  | ';' => p.endWord.endStatement
  | '\'' => p.openQuote .single
  | '"' => p.openQuote .double
  | '\\' => { p with mode := .bareEscape }
  | '$' => { p with mode := .dollar false }
  | c => { p.push c with mode := .bare }

/-- Takes a character between words. -/
def takeBlank (p : Progress) (c : Char) : Progress :=
  match c with
  | ' ' | '\t' => p
  | '\n' =>
    let p := p.endStatement
    { p with line := p.line + 1 }
  | ';' => p.endStatement
  | '#' => { p with mode := .comment }
  | c => p.takeBare c

/-- Takes a character inside double quotes. -/
def takeDouble (p : Progress) (c : Char) : Progress :=
  match c with
  | '"' => { p with mode := .bare }
  | '\\' => { p with mode := .doubleEscape }
  | '$' => { p with mode := .dollar true }
  | '\n' => { p.push c with line := p.line + 1, mode := .double }
  | c => { p.push c with mode := .double }

/-- Takes a character after an expansion. -/
def takeAround (quoted : Bool) (p : Progress) (c : Char) : Progress :=
  if quoted then p.takeDouble c else p.takeBare c

def take (p : Progress) (c : Char) : Progress :=
  match p.mode with
  | .blank => p.takeBlank c
  | .comment => if c == '\n' then { p with mode := .blank }.takeBlank c else p
  | .bare => p.takeBare c
  | .bareEscape => { p.push c with mode := .bare }
  | .single => if c == '\'' then { p with mode := .bare } else p.push c
  | .double => p.takeDouble c
  | .doubleEscape =>
    if c == '"' || c == '\\' || c == '$' then { p.push c with mode := .double }
    else { (p.push '\\').push c with mode := .double }
  | .dollar quoted =>
    if c == '@' then { p.addPart (.arguments quoted) with mode := around quoted }
    else if c.isDigit || c == '$' || c == '?' || c == '#' then
      { p.addPart (.parameter (String.singleton c) quoted) with mode := around quoted }
    else if c == '\x7b' then { p with mode := .braced quoted [] }
    else if c == '(' then { p with mode := .parenthesis quoted }
    else if isNameChar c then { p with mode := .name quoted [c] }
    else takeAround quoted (p.push '$') c
  | .name quoted read =>
    if isNameChar c then { p with mode := .name quoted (c :: read) }
    else takeAround quoted (p.addPart (.parameter (String.ofList read.reverse) quoted)) c
  | .braced quoted read =>
    if c == '\x7d' then
      { p.addPart (.parameter (String.ofList read.reverse) quoted) with mode := around quoted }
    else { p with mode := .braced quoted (c :: read) }
  | .parenthesis quoted =>
    if c == '(' then { p with mode := .sum quoted [] } else { p with mode := .comment }
  | .sum quoted read =>
    if c == ')' then { p with mode := .sumEnd quoted read }
    else { p with mode := .sum quoted (c :: read) }
  | .sumEnd quoted read =>
    { p.addPart (.sum (terms read.reverse)) with mode := around quoted }

end Progress

/-- The statements of a text. A line break at the end ends the last one. -/
def statements (text : String) : List Statement :=
  ((text.toList ++ ['\n']).foldl Progress.take {}).statements.reverse

/-! ## Commands -/

/-- What a loop goes over. -/
inductive LoopHead where
  | forEach (name : String) (words : List Word)
  | repeatWhile
  deriving Inhabited, Repr

/-- A loop whose end was not met yet; its commands are reversed. -/
structure OpenLoop where
  head : LoopHead
  test : List Command := []
  body : Option (List Command) := none
  deriving Inhabited, Repr

/-- Commands gathered so far, reversed, inside the loops that are open. -/
structure Gathered where
  done : List Command := []
  loops : List OpenLoop := []
  deriving Inhabited, Repr

namespace Gathered

/-- Adds a command where the innermost loop stands. -/
def add (g : Gathered) (c : Command) : Gathered :=
  match g.loops with
  | [] => { g with done := c :: g.done }
  | loop :: rest =>
    match loop.body with
    | some body => { g with loops := { loop with body := some (c :: body) } :: rest }
    | none => { g with loops := { loop with test := c :: loop.test } :: rest }

/-- Ends the innermost loop. -/
def close (g : Gathered) : Gathered :=
  match g.loops with
  | [] => g
  | loop :: rest =>
    let body := (loop.body.getD []).reverse
    let command := match loop.head with
      | .forEach name words => Command.forEach name words body
      | .repeatWhile => Command.repeatWhile loop.test.reverse body
    { g with loops := rest }.add command

/-- Starts the body of the innermost loop. -/
def startBody (g : Gathered) : Gathered :=
  match g.loops with
  | [] => g
  | loop :: rest => { g with loops := { loop with body := some [] } :: rest }

/-- A simple command, its assignments in front. -/
def simple (line : Nat) : List (String × Word) → List Word → Command
  | assignments, [] => .simple line assignments.reverse []
  | assignments, w :: rest =>
    match w.assignment? with
    | some assignment => simple line (assignment :: assignments) rest
    | none => .simple line assignments.reverse (w :: rest)

/-- Adds the words of a statement, which may open, continue and close loops. -/
def takeWords (line : Nat) (g : Gathered) : List Word → Gathered
  | [] => g
  | w :: rest =>
    match w.literal? with
    | some "while" =>
      takeWords line { g with loops := { head := .repeatWhile } :: g.loops } rest
    | some "do" => takeWords line g.startBody rest
    | some "done" => takeWords line g.close rest
    | some "for" =>
      match rest with
      | name :: _ :: words =>
        { g with loops := { head := .forEach ((Word.literal? name).getD "") words } :: g.loops }
      | _ => g
    | _ => g.add (simple line [] (w :: rest))

end Gathered

/-- The commands of a text. -/
def read (text : String) : List Command :=
  ((statements text).foldl (fun g s => Gathered.takeWords s.line g s.words) {}).done.reverse

end ExprShell.Script
