/-
The texts of tokens: delimiters, quote signs with the bracket they join, strings, numbers and
names (`IsLexeme`). Where a lexeme stands in a text, no longer one begins at the same place,
unless a word goes on behind it or a quote sign joins a bracket (`IsLexeme.isLongest`).
-/
import ExprShell.Proofs.Token.Reads

namespace ExprShell

/-- Characters that no name has in it: blanks, the double quote, and delimiters. -/
def reserved : List Char :=
  [' ', '\t', '\r', '\n', '"', '(', ')', '[', ']', '\x7b', '\x7d', ';']

/-- The texts that tokens have. -/
inductive IsLexeme : List Char → Prop where
  | delimiter {c : Char} : c ∈ ['(', ')', '[', ']', '\x7b', '\x7d', ';'] → IsLexeme [c]
  /-- A quote sign with the bracket that it joins. -/
  | quotedOpener {c : Char} : c ∈ ['(', '['] → IsLexeme ['\'', c]
  | string {body : List Char} : '"' ∉ body → IsLexeme ('"' :: body ++ ['"'])
  | number {digits : List Char} :
    digits ≠ [] → (∀ c ∈ digits, c.isDigit = true) → IsLexeme digits
  | name {c : Char} {rest : List Char} :
    c.isDigit = false → c ≠ '#' → (∀ d ∈ c :: rest, d ∉ reserved) → IsLexeme (c :: rest)

/-- The text does not end inside a name or number. -/
def WordEnded (text : List Char) : Prop :=
  ∀ c, text.getLast? = some c → c ∈ reserved

/-- No longer lexeme begins with the text where the other one follows it. -/
def IsLongest (text after : List Char) : Prop :=
  ∀ more, more ≠ [] → more <+: after → ¬ IsLexeme (text ++ more)

variable {text after : List Char} {c : Char}

namespace Scanner

theorem isDelimiter_iff :
    isDelimiter c = true ↔ c ∈ ['(', ')', '[', ']', '\x7b', '\x7d', ';'] := by
  simp [isDelimiter]

theorem isWordChar_iff : isWordChar c = true ↔ c ∉ reserved := by
  simp [isWordChar, isDelimiter, reserved, and_assoc]

theorem isWordChar_eq_false_iff : isWordChar c = false ↔ c ∈ reserved := by
  rw [← Bool.not_eq_true, isWordChar_iff, Decidable.not_not]

theorem mem_reserved_of_isDelimiter (h : isDelimiter c = true) : c ∈ reserved := by
  rw [← isWordChar_eq_false_iff]
  simp [isWordChar, h]

end Scanner

theorem not_mem_reserved_of_isDigit (h : c.isDigit = true) : c ∉ reserved :=
  Scanner.isWordChar_iff.1 (Scanner.isWordChar_of_isDigit h)

/-! ## Names and numbers -/

/-- A name or a number. -/
structure IsBareWord (text : List Char) : Prop where
  lexeme : IsLexeme text
  plain : ∀ c ∈ text, c ∉ reserved

/-- The text of a name, as far as it was read. -/
def IsName (text : List Char) : Prop :=
  ∃ c rest, text = c :: rest ∧ c.isDigit = false ∧ c ≠ '#' ∧ ∀ d ∈ c :: rest, d ∉ reserved

theorem IsName.concat (h : IsName text) (hc : c ∉ reserved) : IsName (text ++ [c]) := by
  obtain ⟨first, rest, rfl, hdigit, hcomment, hword⟩ := h
  refine ⟨first, rest ++ [c], rfl, hdigit, hcomment, ?_⟩
  exact List.forall_mem_append.2 ⟨hword, List.forall_mem_singleton.2 hc⟩

theorem IsName.isBareWord (h : IsName text) : IsBareWord text := by
  obtain ⟨c, rest, rfl, hdigit, hcomment, hword⟩ := h
  exact ⟨.name hdigit hcomment hword, hword⟩

theorem isBareWord_of_digits (hne : text ≠ []) (h : ∀ c ∈ text, c.isDigit = true) : IsBareWord text :=
  ⟨.number hne h, fun c hc => not_mem_reserved_of_isDigit (h c hc)⟩

/-! ## The longest lexeme at a place -/

namespace IsLexeme

theorem ne_nil (h : IsLexeme text) : text ≠ [] := by
  cases h with
  | number hne _ => exact hne
  | _ => simp

/-- A delimiter, and a blank, begins no lexeme that goes on. -/
theorem single_of_reserved {rest : List Char} (h : IsLexeme (c :: rest)) (hc : c ∈ reserved)
    (hquote : c ≠ '"') : rest = [] := by
  cases h with
  | delimiter _ => rfl
  | quotedOpener _ => exact absurd hc (by simp [reserved])
  | string _ => exact absurd rfl hquote
  | number _ hdigits => exact absurd hc (not_mem_reserved_of_isDigit (hdigits c (by simp)))
  | name _ _ hword => exact absurd hc (hword c (by simp))

/-- What stands before a reserved character inside a lexeme is a quote sign or part of a string. -/
theorem cut_reserved {front back : List Char} (h : IsLexeme (front ++ c :: back))
    (hc : c ∈ reserved) (hfront : front ≠ []) :
    (front = ['\''] ∧ c ∈ ['(', '['] ∧ back = []) ∨ ∃ rest, front = '"' :: rest := by
  obtain ⟨first, rest, rfl⟩ := List.exists_cons_of_ne_nil hfront
  generalize htext : first :: rest ++ c :: back = text at h
  have hmem : c ∈ text := htext ▸ by simp
  cases h with
  | delimiter _ => simp at htext
  | quotedOpener hd =>
    left
    simp only [List.cons_append, List.cons.injEq] at htext
    obtain ⟨rfl, htext⟩ := htext
    obtain ⟨rfl, heq⟩ | ⟨rest', rfl, heq⟩ := List.append_eq_cons_iff.1 htext
    · cases heq
      exact ⟨rfl, hd, rfl⟩
    · simp at heq
  | string _ =>
    right
    simp only [List.cons_append, List.cons.injEq] at htext
    exact ⟨rest, by rw [htext.1]⟩
  | number _ hdigits => exact absurd hc (not_mem_reserved_of_isDigit (hdigits c hmem))
  | name _ _ hword => exact absurd hc (hword c hmem)

/-- A string goes no further than to the next double quote. -/
theorem string_isLongest (body : List Char) : IsLongest ('"' :: body ++ ['"']) after := by
  intro more hmore _ hlexeme
  have hcut : '"' :: body ++ ['"'] ++ more = '"' :: (body ++ '"' :: more) := by simp
  rw [hcut] at hlexeme
  generalize htext : '"' :: (body ++ '"' :: more) = text at hlexeme
  cases hlexeme with
  | delimiter _ | quotedOpener _ => simp at htext
  | @string other hother =>
    have hend : other ++ ['"'] = body ++ '"' :: more := by simpa using htext.symm
    have hinside : other = body ++ '"' :: more.dropLast :=
      calc other
          = (other ++ ['"']).dropLast := List.dropLast_concat.symm
        _ = (body ++ '"' :: more).dropLast := by rw [hend]
        _ = body ++ '"' :: more.dropLast := by
          rw [List.dropLast_append_cons, List.dropLast_cons_of_ne_nil hmore]
    exact hother (by simp [hinside])
  | number _ hdigits => exact absurd (hdigits '"' (htext ▸ by simp)) (by decide)
  | name _ _ hword => exact hword '"' (htext ▸ by simp) (by simp [reserved])

/-- A lexeme is the longest one if no word goes on behind it and no quote sign joins a bracket. -/
theorem isLongest (h : IsLexeme text)
    (hafter : (∀ c ∈ text, c ∉ reserved) → ∀ c, after.head? = some c →
      c ∈ reserved ∧ ¬ (text = ['\''] ∧ c ∈ ['(', '['])) :
    IsLongest text after := by
  -- A word has to be told apart from what is no word, so the kinds of words come together.
  have hword (hplain : ∀ c ∈ text, c ∉ reserved) : IsLongest text after := by
    intro more hmore hstart hlexeme
    obtain ⟨c, rest, rfl⟩ := List.exists_cons_of_ne_nil hmore
    obtain ⟨hc, hjoin⟩ := hafter hplain c (by
      obtain ⟨others, rfl⟩ := hstart
      rfl)
    obtain ⟨htext, hbracket, -⟩ | ⟨others, rfl⟩ := hlexeme.cut_reserved hc h.ne_nil
    · exact hjoin ⟨htext, hbracket⟩
    · exact hplain '"' (by simp) (by simp [reserved])
  cases h with
  | @delimiter d hd =>
    intro more hmore _ hlexeme
    have hreserved := Scanner.mem_reserved_of_isDelimiter (Scanner.isDelimiter_iff.2 hd)
    refine hmore (hlexeme.single_of_reserved hreserved ?_)
    intro hquote
    subst hquote
    simp at hd
  | @quotedOpener d hd =>
    intro more hmore _ hlexeme
    have hreserved : d ∈ reserved := by
      simp only [List.mem_cons, List.not_mem_nil, or_false] at hd
      rcases hd with rfl | rfl <;> simp [reserved]
    have hcut : IsLexeme (['\''] ++ d :: more) := hlexeme
    obtain ⟨-, -, hback⟩ | ⟨rest, hrest⟩ := hcut.cut_reserved hreserved (by simp)
    · exact hmore hback
    · simp at hrest
  | string _ => exact string_isLongest _
  | number hne hdigits => exact hword (isBareWord_of_digits hne hdigits).plain
  | name _ _ hplain => exact hword hplain

end IsLexeme

end ExprShell
