/-
Cutting a text at a separator and joining pieces with one. Separators are found from the
left and do not overlap; a text without the separator is one piece, and an empty text is one
empty piece.
-/

namespace ExprShell.Text

/-- The pieces of a text that stands after `pending`, the reversed start of a piece. -/
def piecesFrom (separator : List Char) (pending : List Char) : List Char → List (List Char)
  | [] => [pending.reverse]
  | c :: rest =>
    if separator.isPrefixOf (c :: rest) then
      pending.reverse :: piecesFrom separator [] (rest.drop (separator.length - 1))
    else
      piecesFrom separator (c :: pending) rest
termination_by text => text.length
decreasing_by
  · simp only [List.length_drop, List.length_cons]; omega
  · simp

/-- The pieces of a text between the occurrences of a separator that is not empty. -/
def pieces (text separator : String) : List String :=
  (piecesFrom separator.toList [] text.toList).map String.ofList

/-- The texts with a separator between each two. -/
def join (separator : String) (texts : List String) : String :=
  separator.intercalate texts

end ExprShell.Text
