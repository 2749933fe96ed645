/-
What gets into tokens. Put together, the tokens of a text are the text without what the scanner
drops, blanks and comments (`Scanner.content_advance`); in a comment everything is dropped up to
the end of the line (`Scanner.advance_comment`). And a token that is no delimiter is a word or a
string: a word has neither blanks nor delimiters nor double quotes in it, and a string has double
quotes at its ends only (`isFormed_of_tokenize`).
-/
import ExprShell.Proofs.Token.Grammar

namespace ExprShell

namespace Token

/-- The characters of tokens. -/
def chars (ts : List Token) : List Char :=
  ts.flatMap (·.text.toList)

/-- A delimiter, a word, or a string. -/
def IsFormed (t : Token) : Prop :=
  t.shape ≠ .word ∨ (t.text.toList ≠ [] ∧ ∀ c ∈ t.text.toList, Scanner.isWordChar c = true) ∨
    ∃ body, t.text.toList = '"' :: (body ++ ['"']) ∧ '"' ∉ body

@[simp] theorem chars_nil : chars [] = [] := rfl

@[simp] theorem chars_cons (t : Token) (ts : List Token) :
    chars (t :: ts) = t.text.toList ++ chars ts := rfl

@[simp] theorem chars_append (ts us : List Token) : chars (ts ++ us) = chars ts ++ chars us := by
  simp [chars]

end Token

namespace Scanner

variable {s s' : Scanner} {c : Char} {xs : List Char}

/-! ## Content -/

/-- The text that is pending in a mode. -/
def Mode.pending : Mode → List Char
  | .word reversed _ | .digits reversed _ | .quote reversed _ => reversed.reverse
  | .idle | .comment => []

/-- The characters of the tokens found, the pending one included. -/
def content (s : Scanner) : List Char :=
  Token.chars s.found.reverse ++ s.mode.pending

/-- A character was dropped or taken in. -/
def Took (s : Scanner) (c : Char) (s' : Scanner) : Prop :=
  s'.content = s.content ∨ s'.content = s.content ++ [c]

@[simp] theorem content_flush (s : Scanner) : s.flush.content = s.content := by
  unfold flush
  split
  all_goals
    next hmode => simp [content, hmode, Mode.pending]

theorem content_push (h : s.mode = .idle) (text : List Char) :
    (s.push text).content = s.content ++ text := by
  simp [content, push, h, Mode.pending]

theorem took_delimiterStep (s : Scanner) (c : Char) : s.Took c (s.delimiterStep c) := by
  have hpush : s.Took c (s.flush.push [c]) := by
    refine .inr ?_
    rw [content_push s.mode_flush, content_flush]
  unfold delimiterStep
  split
  · next start hmode =>
    split
    · refine .inr ?_
      rw [content_flush]
      simp [content, hmode, Mode.pending]
    · exact hpush
  · exact hpush

theorem took_digitStep (h : s.Outside) (c : Char) : s.Took c (s.digitStep c) := by
  refine .inr ?_
  unfold digitStep
  cases hmode : s.mode with
  | idle | word | digits => simp [content, hmode, Mode.pending]
  | quote | comment => simp [Outside, hmode] at h

theorem took_letterStep (h : s.Outside) (hs : s.letterStep c = .ok s') : s.Took c s' := by
  refine .inr ?_
  unfold letterStep at hs
  cases hmode : s.mode with
  | idle | word =>
    rw [hmode] at hs
    cases hs
    simp [content, hmode, Mode.pending]
  | digits =>
    rw [hmode] at hs
    cases hs
  | quote | comment => simp [Outside, hmode] at h

theorem took_openQuote (hs : s.openQuote = .ok s') : s.Took '"' s' := by
  refine .inr ?_
  unfold openQuote at hs
  split at hs
  case h_4 hmode | h_5 hmode =>
    cases hs
    simp [content, hmode, Mode.pending]
  all_goals cases hs

theorem took_plainStep (h : s.Outside) (hs : s.plainStep c = .ok s') : s.Took c s' := by
  obtain ⟨-, heq⟩ | ⟨-, heq⟩ | ⟨rfl, heq⟩ | ⟨-, hmode, heq⟩ | ⟨-, heq⟩ | ⟨-, -, heq⟩ |
    ⟨-, -, -, heq⟩ := s.plainStep_cases c
  · cases heq.symm.trans hs
    exact .inl s.content_flush
  · cases heq.symm.trans hs
    exact .inl s.content_flush
  · exact took_openQuote (heq.symm.trans hs)
  · cases heq.symm.trans hs
    exact .inl (by simp [content, hmode, Mode.pending])
  · cases heq.symm.trans hs
    exact took_delimiterStep s c
  · cases heq.symm.trans hs
    exact took_digitStep h c
  · exact took_letterStep h (heq.symm.trans hs)

theorem took_quoteStep {reversed : List Char} {start : Nat} (h : s.mode = .quote reversed start)
    (c : Char) : s.Took c (s.quoteStep reversed start c) := by
  refine .inr ?_
  unfold quoteStep
  dsimp only
  split
  · simp [content, h, Mode.pending, nextLine]
  · split
    · rw [content_flush]
      simp [content, h, Mode.pending]
    · simp [content, h, Mode.pending]

/-- One step: a character is dropped or taken in. -/
theorem took_step (hs : s.step c = .ok s') : s.Took c s' := by
  cases hmode : s.mode with
  | quote reversed start =>
    simp only [step, hmode] at hs
    cases hs
    exact took_quoteStep hmode c
  | comment =>
    simp only [step, hmode] at hs
    cases hs
    refine .inl ?_
    unfold commentStep
    split
    · simp [content, hmode, Mode.pending, nextLine]
    · rfl
  | _ =>
    have ho : s.Outside := by simp [Outside, hmode]
    rw [step_of_outside ho] at hs
    exact took_plainStep ho hs

/-- All along a text, nothing is invented. -/
theorem content_advance (h : s.advance xs = (none, s')) :
    ∃ kept, kept.Sublist xs ∧ s'.content = s.content ++ kept := by
  induction xs generalizing s with
  | nil =>
    cases h
    exact ⟨[], .slnil, (List.append_nil _).symm⟩
  | cons c xs ih =>
    cases hstep : s.step c with
    | error fault => simp [advance, hstep] at h
    | ok next =>
      rw [advance_cons_of_ok hstep] at h
      obtain ⟨kept, hsublist, hcontent⟩ := ih h
      obtain htook | htook := took_step hstep
      · exact ⟨kept, hsublist.cons c, by rw [hcontent, htook]⟩
      · exact ⟨c :: kept, hsublist.cons_cons c, by rw [hcontent, htook]; simp⟩

/-- A comment goes on to the end of the line. -/
theorem advance_comment (h : s.mode = .comment) (hx : '\n' ∉ xs) : s.advance xs = (none, s) := by
  induction xs with
  | nil => rfl
  | cons c xs ih =>
    have hc : c ≠ '\n' := fun heq => hx (heq ▸ List.mem_cons_self)
    have hstep : s.step c = .ok s := by simp [step, h, commentStep, hc]
    rw [advance_cons_of_ok hstep]
    exact ih fun hmem => hx (List.mem_cons_of_mem c hmem)

end Scanner

theorem IsLexeme.isFormed {t : Token} (h : IsLexeme t.text.toList) : t.IsFormed := by
  have htext : t.text = String.ofList t.text.toList := String.ofList_toList.symm
  generalize hchars : t.text.toList = chars at h htext
  unfold Token.IsFormed
  rw [hchars]
  cases h with
  | delimiter hc =>
    left
    simp only [List.mem_cons, List.not_mem_nil, or_false] at hc
    obtain rfl | rfl | rfl | rfl | rfl | rfl | rfl := hc
    all_goals simp [Token.shape, htext]
  | quotedOpener hc =>
    left
    simp only [List.mem_cons, List.not_mem_nil, or_false] at hc
    obtain rfl | rfl := hc
    all_goals simp [Token.shape, htext]
  | string hbody => exact .inr (.inr ⟨_, rfl, hbody⟩)
  | number hne hdigits =>
    exact .inr (.inl ⟨hne, fun c hc => Scanner.isWordChar_of_isDigit (hdigits c hc)⟩)
  | name hdigit hcomment hrest =>
    exact .inr (.inl ⟨List.cons_ne_nil _ _, fun c hc => Scanner.isWordChar_iff.2 (hrest c hc)⟩)

theorem isFormed_of_tokenize {source : String} {tokens : List Token}
    (h : tokenize source = .ok tokens) : ∀ t ∈ tokens, t.IsFormed :=
  fun t ht => (isLexeme_of_tokenize h t ht).isFormed

end ExprShell
