/-
Blanks are the characters with the Unicode property White_Space. Trimming takes them off
both ends of a text, and `words` cuts a text into its maximal runs of other characters.
-/
import ExprShell.Text.CodeRange

namespace ExprShell.Text

/-- Ranges of the blank characters. -/
def blankRanges : List CodeRange := [
  ⟨0x9, 0xd⟩, ⟨0x20, 0x20⟩, ⟨0x85, 0x85⟩, ⟨0xa0, 0xa0⟩, ⟨0x1680, 0x1680⟩, ⟨0x2000, 0x200a⟩,
  ⟨0x2028, 0x2029⟩, ⟨0x202f, 0x202f⟩, ⟨0x205f, 0x205f⟩, ⟨0x3000, 0x3000⟩]

def isBlank (c : Char) : Bool :=
  CodeRange.cover blankRanges c

/-- The text without the blanks at either end. -/
def trim (text : String) : String :=
  String.ofList (((text.toList.dropWhile isBlank).reverse.dropWhile isBlank).reverse)

/-- Maximal runs of characters that are not blank, after those of `pending`, the reversed
start of a run. -/
def wordsFrom (pending : List Char) : List Char → List (List Char)
  | [] => if pending.isEmpty then [] else [pending.reverse]
  | c :: rest =>
    if isBlank c then
      if pending.isEmpty then wordsFrom [] rest else pending.reverse :: wordsFrom [] rest
    else
      wordsFrom (c :: pending) rest

/-- The words of a text, in order. -/
def words (text : String) : List String :=
  (wordsFrom [] text.toList).map String.ofList

end ExprShell.Text
