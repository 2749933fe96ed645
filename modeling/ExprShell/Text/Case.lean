/-
Upper and lower case of texts by the full Unicode mappings, so that one character may become
several. The one mapping that depends on its neighbours is that of the capital sigma: it
becomes a final sigma when a cased letter precedes it and none follows, where case-ignorable
characters on both sides are skipped.
-/
import ExprShell.Text.CaseTable

namespace ExprShell.Text

/-- The shift that a table of runs gives a code point. -/
def CaseRun.shift? (runs : List CaseRun) (n : Nat) : Option Int :=
  (runs.find? fun r => r.first ≤ n && n ≤ r.last && (n - r.first) % r.step == 0).map (·.shift)

/-- The image of a character under a table of runs and one of expansions. -/
def mapCase (runs : List CaseRun) (expansions : List (Nat × List Nat)) (c : Char) : List Char :=
  match expansions.lookup c.toNat with
  | some image => image.map Char.ofNat
  | none =>
    match CaseRun.shift? runs c.toNat with
    | some shift => [Char.ofNat (c.toNat + shift).toNat]
    | none => [c]

/-- The upper case of a character. -/
def upperChar (c : Char) : List Char :=
  mapCase CaseTable.upperRuns CaseTable.upperExpansions c

/-- The lower case of a character outside any text. -/
def lowerChar (c : Char) : List Char :=
  mapCase CaseTable.lowerRuns CaseTable.lowerExpansions c

/-- The first character that is not case-ignorable is cased. -/
def startsCased (text : List Char) : Bool :=
  match text.dropWhile (CodeRange.cover CaseTable.caseIgnorable) with
  | [] => false
  | c :: _ => CodeRange.cover CaseTable.cased c

/-- The lower case of a text that stands after `before`, which is reversed. -/
def lowerAfter (before : List Char) : List Char → List Char
  | [] => []
  | c :: rest =>
    let image :=
      if c == 'Σ' then
        if startsCased before && !startsCased rest then ['ς'] else ['σ']
      else
        lowerChar c
    image ++ lowerAfter (c :: before) rest

def upper (text : String) : String :=
  String.ofList (text.toList.flatMap upperChar)

def lower (text : String) : String :=
  String.ofList (lowerAfter [] text.toList)

end ExprShell.Text
