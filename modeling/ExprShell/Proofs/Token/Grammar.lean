/-
The tokens of texts are the lexemes (`tokenize_image`). A token is a lexeme, as it stands in its
text. The other way, a scanner between tokens reads a lexeme as itself (`IsLexeme.reads`), and
lexemes with a space between each two one by one.
-/
import ExprShell.Proofs.Token.Account

namespace ExprShell

theorem isLexeme_of_tokenize {source : String} {tokens : List Token}
    (h : tokenize source = .ok tokens) : ∀ t ∈ tokens, IsLexeme t.text.toList := by
  obtain ⟨spans, haccounted⟩ := accounted_of_tokenize h
  have hboth := haccounted.placed.imp fun t s hstands =>
    And.intro (show IsLexeme t.text.toList from hstands.text ▸ hstands.lexeme) hstands
  exact ((List.forall₂_and_left _ _).1 hboth).1

/-- A lexeme is read as itself. -/
theorem IsLexeme.reads {text : List Char} (h : IsLexeme text) :
    Scanner.Reads text [String.ofList text] := by
  cases h with
  | @delimiter c hc =>
    -- A closing delimiter is read after a text and an opening one before it, here an empty one.
    cases hclosing : Scanner.isClosing c with
    | true => exact Scanner.Reads.nil.closed hclosing
    | false =>
      refine Scanner.Reads.nil.opened ?_
      simp_all [Scanner.isClosing, Scanner.isOpening]
  | quotedOpener hc => exact Scanner.Reads.nil.joined hc
  | string hbody => exact Scanner.Reads.string hbody
  | number hne hdigits =>
    cases text with
    | nil => exact absurd rfl hne
    | cons c rest => exact Scanner.Reads.digits hdigits
  | name hdigit hcomment hrest =>
    exact Scanner.Reads.word hdigit hcomment fun d hd => Scanner.isWordChar_iff.2 (hrest d hd)

/-- Lexemes with a space between each two are read one by one. -/
theorem reads_intercalate {texts : List String} (h : ∀ text ∈ texts, IsLexeme text.toList) :
    Scanner.Reads (" ".intercalate texts).toList texts := by
  induction texts with
  | nil => exact Scanner.Reads.nil
  | cons text rest ih =>
    obtain ⟨hfirst, hrest⟩ := List.forall_mem_cons.1 h
    have hreads := hfirst.reads
    rw [String.ofList_toList] at hreads
    cases rest with
    | nil =>
      rw [String.intercalate_singleton]
      exact hreads
    | cons next others =>
      rw [String.intercalate_cons_cons, String.toList_append, String.toList_append,
        List.append_assoc]
      exact hreads.space (ih hrest)

/-- **The tokens of texts are the lexemes.** Every token is one, and lexemes with a space between
each two have themselves as tokens. -/
theorem tokenize_image :
    (∀ source tokens, tokenize source = .ok tokens → ∀ t ∈ tokens, IsLexeme t.text.toList) ∧
    (∀ texts : List String, (∀ text ∈ texts, IsLexeme text.toList) →
      ∃ tokens, tokenize (" ".intercalate texts) = .ok tokens ∧ tokens.map (·.text) = texts) :=
  ⟨fun _ _ h => isLexeme_of_tokenize h, fun _ h => tokenize_of_reads (reads_intercalate h)⟩

/-- Quote signs that join a bracket and others that do not, a string with a delimiter, a `#` and a
line break in it, and digits in and outside a name. -/
theorem tokenize_image_quotes :
    let found : List Token := [⟨"a'", 1⟩, ⟨"(", 1⟩, ⟨"'[", 1⟩, ⟨"12", 1⟩]
    let texts := ["'", "(", "\"#;\n\"", "x#1", "007"]
    (tokenize "a'('[12" = .ok found ∧ ∀ t ∈ found, IsLexeme t.text.toList) ∧
    (∀ text ∈ texts, IsLexeme text.toList) ∧
      ∃ tokens, tokenize (" ".intercalate texts) = .ok tokens ∧ tokens.map (·.text) = texts := by
  intro found texts
  have hfound : tokenize "a'('[12" = .ok found := rfl
  have hquote : IsLexeme ['\''] := .name (by decide) (by decide) (by simp [reserved])
  have hstring : IsLexeme ('"' :: ['#', ';', '\n'] ++ ['"']) := .string (by decide)
  have hname : IsLexeme ['x', '#', '1'] := .name (by decide) (by decide) (by simp [reserved])
  have hnumber : IsLexeme ['0', '0', '7'] := .number (by decide) (by simp)
  have htexts : ∀ text ∈ texts, IsLexeme text.toList := by
    intro text htext
    simp only [texts, List.mem_cons, List.not_mem_nil, or_false] at htext
    obtain rfl | rfl | rfl | rfl | rfl := htext
    · exact hquote
    · exact .delimiter (by decide)
    · exact hstring
    · exact hname
    · exact hnumber
  exact ⟨⟨hfound, tokenize_image.1 _ _ hfound⟩, htexts, tokenize_image.2 _ htexts⟩

end ExprShell
