/-
The lines of an input. A line ends with a line feed, which a carriage return may stand before;
what follows the last line feed is a line too unless it is empty.
-/
import ExprShell.Text.Utf8

namespace ExprShell.Text

/-- Cuts bytes after each line feed; `pending` is the reversed start of a line. -/
def cutLines (pending : List UInt8) : List UInt8 → List (List UInt8)
  | [] => if pending.isEmpty then [] else [pending.reverse]
  | b :: rest =>
    if b == 10 then (b :: pending).reverse :: cutLines [] rest else cutLines (b :: pending) rest

/-- The line without its end. -/
def stripEnd (line : List UInt8) : List UInt8 :=
  match line.reverse with
  | 10 :: 13 :: rest => rest.reverse
  | 10 :: rest => rest.reverse
  | _ => line

/-- The lines of an input; a line that is no text is `none`. -/
def lines (input : ByteArray) : List (Option String) :=
  (cutLines [] input.toList).map fun line => Utf8.decode? ⟨(stripEnd line).toArray⟩

end ExprShell.Text
