/-
Tokens: pieces of source text with the line they start on. A token is an opening or closing
delimiter, the separator `;`, or a word; words are numbers, strings (which keep both quotes)
and names.
-/
import ExprShell.Number

namespace ExprShell

/-- Closing delimiters. -/
inductive Closer where
  | paren
  | bracket
  | brace
  deriving Inhabited, DecidableEq, Repr

def Closer.text : Closer → String
  | paren => ")"
  | bracket => "]"
  | brace => "\x7d"

/-- Opening delimiters; the quoted ones open data. -/
inductive Opener where
  | paren
  | bracket
  | quotedParen
  | quotedBracket
  | brace
  deriving Inhabited, DecidableEq, Repr

def Opener.text : Opener → String
  | paren => "("
  | bracket => "["
  | quotedParen => "'("
  | quotedBracket => "'["
  | brace => "\x7b"

/-- The delimiter that closes what an opener opens. -/
def Opener.closer : Opener → Closer
  | paren | quotedParen => .paren
  | bracket | quotedBracket => .bracket
  | brace => .brace

/-- A piece of source text. -/
structure Token where
  text : String
  /-- Line on which the text starts, counted from one. -/
  line : Nat
  deriving Inhabited, DecidableEq, Repr

/-- What a token does for the structure of the source. -/
inductive Shape where
  | opener (o : Opener)
  | closer (c : Closer)
  | separator
  | word
  deriving Inhabited, DecidableEq, Repr

/-- Words that start a form of their own. -/
inductive Keyword where
  | letWord
  | matchWord
  | condWord
  deriving Inhabited, DecidableEq, Repr

def Keyword.text : Keyword → String
  | letWord => "let"
  | matchWord => "match"
  | condWord => "cond"

namespace Token

def shape (t : Token) : Shape :=
  match t.text with
  | "(" => .opener .paren
  | "[" => .opener .bracket
  | "'(" => .opener .quotedParen
  | "'[" => .opener .quotedBracket
  | "\x7b" => .opener .brace
  | ")" => .closer .paren
  | "]" => .closer .bracket
  | "\x7d" => .closer .brace
  | ";" => .separator
  | _ => .word

def keyword? (t : Token) : Option Keyword :=
  match t.text with
  | "let" => some .letWord
  | "match" => some .matchWord
  | "cond" => some .condWord
  | _ => none

def isCloser (t : Token) : Bool :=
  match t.shape with
  | .closer _ => true
  | _ => false

/-- The closer that an opening delimiter needs. -/
def closer? (t : Token) : Option Closer :=
  match t.shape with
  | .opener o => some o.closer
  | _ => none

/-- A string literal: at least two characters, a double quote at either end. -/
def isString (t : Token) : Bool :=
  match t.text.toList with
  | '"' :: c :: rest => (c :: rest).getLast? == some '"'
  | _ => false

/-- A string literal is what stands between a quote and a quote. -/
theorem toList_of_isString {t : Token} (h : t.isString = true) :
    ∃ cs, t.text.toList = '"' :: (cs ++ ['"']) := by
  unfold isString at h
  split at h
  · next c rest htext =>
    have hlast : (c :: rest).getLast? = some '"' := by simpa using h
    obtain ⟨cs, hcs⟩ := List.getLast?_eq_some_iff.1 hlast
    exact ⟨cs, by rw [htext, hcs]⟩
  · cases h

/-- A numeric literal. -/
def isNumber (t : Token) : Bool :=
  Number.isLiteral t.text

/-- An escaped name: `@` and at least one more character. -/
def isEscape (t : Token) : Bool :=
  match t.text.toList with
  | '@' :: _ :: _ => true
  | _ => false

/-- A token that can name something: a word that is no literal and no escape. -/
def isName (t : Token) : Bool :=
  t.shape == .word && !t.isString && !t.isNumber && !t.isEscape
    && t.text != "true" && t.text != "false"

theorem shape_of_isName {t : Token} (h : t.isName = true) : t.shape = .word := by
  simp only [isName, Bool.and_eq_true, beq_iff_eq] at h
  exact h.1.1.1.1.1

end Token

end ExprShell
