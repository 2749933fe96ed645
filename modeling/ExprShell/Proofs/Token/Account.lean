/-
The scanner loses nothing of a text and invents nothing (`tokenize_explained`). Its tokens stand
where a layout of the text puts them. Where a text has no tokens, the line reported is that of the
literal which cannot be read on.

What the scanner has read up to some point is a layout and the part of a lexeme or comment that is
not finished yet (`Scanner.Has`). A single character goes on with that part or ends it
(`Scanner.Has.step`), and where it cannot, that part is the literal at fault
(`Scanner.Has.blames`); so it goes all along the text (`Scanner.Reached.advance`).
-/
import ExprShell.Proofs.Token.Layout

namespace ExprShell

/-- A literal cannot be read on: a name or number runs into a double quote, a number into another
character of a name, or a string into the end of the text. -/
inductive Offence : LexicalCause → (literal rest : List Char) → Prop where
  | quoteInside {literal rest : List Char} :
    IsBareWord literal → Offence .quoteInside literal ('"' :: rest)
  | strayCharacter {literal rest : List Char} {c : Char} :
    literal ≠ [] → (∀ d ∈ literal, d.isDigit = true) → Scanner.isWordChar c = true →
      c.isDigit = false → Offence (.strayCharacter c) literal (c :: rest)
  | unterminatedString {body : List Char} :
    '"' ∉ body → Offence .unterminatedString ('"' :: body) []

/-! ## What the scanner has read -/

namespace Scanner

/-- What is pending in a mode, given the line on which it starts. -/
def Mode.Holds (start : Nat) (pending : List Char) : Mode → Prop
  | .idle => pending = []
  | .word reversed line =>
    reversed.reverse = pending ∧ line = start ∧ IsName pending
  | .digits reversed line =>
    reversed.reverse = pending ∧ line = start ∧ pending ≠ [] ∧ ∀ c ∈ pending, c.isDigit = true
  | .quote reversed line =>
    reversed.reverse = pending ∧ line = start ∧ ∃ body, pending = '"' :: body ∧ '"' ∉ body
  | .comment => ∃ body, pending = '#' :: body ∧ '\n' ∉ body

/-- The scanner has read a layout and what is pending after it. -/
structure Has (layout : List Piece) (pending : List Char) (s : Scanner) : Prop where
  valid : ∀ after, Layout.IsValid [] after layout
  found : s.found = (Layout.tokens 1 layout).reverse
  line : s.line = 1 + lineBreaks (Layout.chars layout ++ pending)
  mode : s.mode.Holds (1 + lineBreaks (Layout.chars layout)) pending
  boundary : WordEnded (Layout.chars layout)

/-- The scanner has read one more character, which goes on with what was pending, or ends it. -/
def HasTaken (layout : List Piece) (pending : List Char) (c : Char) (s : Scanner) : Prop :=
  Has layout (pending ++ [c]) s ∨
    ∃ more, Layout.chars more = pending ++ [c] ∧ Has (layout ++ more) [] s

namespace Has

variable {layout : List Piece} {pending : List Char} {s s' : Scanner} {c : Char}

/-- The character goes on with what is pending. -/
theorem goOn (h : Has layout pending s) (hfound : s'.found = s.found)
    (hline : s'.line = s.line + lineBreaks [c])
    (hmode : s'.mode.Holds (1 + lineBreaks (Layout.chars layout)) (pending ++ [c])) :
    HasTaken layout pending c s' := by
  refine .inl ⟨h.valid, hfound.trans h.found, ?_, hmode, h.boundary⟩
  rw [hline, h.line, ← List.append_assoc, lineBreaks_append _ [c]]
  omega

/-- The character ends what is pending, which together with it gives more of the layout. -/
theorem close (h : Has layout pending s) (more : List Piece)
    (hvalid : ∀ after, Layout.IsValid (Layout.chars layout) after more)
    (hchars : Layout.chars more = pending ++ [c]) (hc : c ∈ reserved)
    (hfound : s'.found =
      (Layout.tokens (1 + lineBreaks (Layout.chars layout)) more).reverse ++ s.found)
    (hline : s'.line = s.line + lineBreaks [c]) (hmode : s'.mode = .idle) :
    HasTaken layout pending c s' := by
  refine .inr ⟨more, hchars, fun after => ?_, ?_, ?_, ?_, ?_⟩
  · exact Layout.isValid_append.2 ⟨h.valid _, hvalid after⟩
  · rw [hfound, h.found, Layout.tokens_append, List.reverse_append]
  · rw [hline, h.line, Layout.chars_append, hchars]
    simp only [lineBreaks_append, lineBreaks_nil]
    omega
  · rw [hmode]
    rfl
  · intro d hd
    rw [Layout.chars_append, hchars, ← List.append_assoc, List.getLast?_concat] at hd
    cases hd
    exact hc

end Has

/-- A pending word or number as part of a layout. -/
def lexemes : List Char → List Piece
  | [] => []
  | c :: rest => [.lexeme (c :: rest)]

@[simp] theorem chars_lexemes (text : List Char) : Layout.chars (lexemes text) = text := by
  cases text with
  | nil => rfl
  | cons c rest => simp [lexemes, Piece.chars]

/-- Outside strings and comments, a word is pending or nothing. -/
theorem Has.isBareWord {layout : List Piece} {pending : List Char} {s : Scanner}
    (h : Has layout pending s) (ho : s.Outside) : pending = [] ∨ IsBareWord pending := by
  have hholds := h.mode
  cases hmode : s.mode with
  | idle =>
    rw [hmode] at hholds
    exact .inl hholds
  | word reversed line =>
    rw [hmode] at hholds
    exact .inr hholds.2.2.isBareWord
  | digits reversed line =>
    rw [hmode] at hholds
    exact .inr (isBareWord_of_digits hholds.2.2.1 hholds.2.2.2)
  | quote | comment => simp [Outside, hmode] at ho

/-- A word ends before a reserved character, if it is no quote sign that joins it. -/
theorem lexemes_valid {before after pending : List Char}
    (h : pending = [] ∨ IsBareWord pending)
    (hafter : ∀ c, after.head? = some c → c ∈ reserved ∧ ¬ (pending = ['\''] ∧ c ∈ ['(', '['])) :
    Layout.IsValid before after (lexemes pending) := by
  obtain rfl | hword := h
  · trivial
  · obtain ⟨d, rest, rfl⟩ := List.exists_cons_of_ne_nil hword.lexeme.ne_nil
    exact ⟨⟨hword.lexeme, hword.lexeme.isLongest fun _ => hafter⟩, trivial⟩

namespace Has

variable {layout : List Piece} {pending : List Char} {s s' : Scanner} {c : Char}

/-- Ending the pending word or number makes it a token. -/
theorem found_flush (h : Has layout pending s) (ho : s.Outside) :
    s.flush.found =
      (Layout.tokens (1 + lineBreaks (Layout.chars layout)) (lexemes pending)).reverse ++
        s.found := by
  have hmode := h.mode
  have hword (reversed : List Char) (line : Nat) (hp : reversed.reverse = pending)
      (hl : line = 1 + lineBreaks (Layout.chars layout)) (hne : pending ≠ []) :
      ⟨String.ofList reversed.reverse, line⟩ :: s.found =
        (Layout.tokens (1 + lineBreaks (Layout.chars layout)) (lexemes pending)).reverse ++
          s.found := by
    rw [hp, hl]
    cases pending with
    | nil => exact absurd rfl hne
    | cons c rest => simp [lexemes, Layout.tokens, Piece.tokens]
  unfold Outside at ho
  unfold flush
  cases hm : s.mode with
  | idle =>
    rw [hm] at hmode
    cases hmode
    rfl
  | word reversed line =>
    rw [hm] at hmode
    exact hword reversed line hmode.1 hmode.2.1 hmode.2.2.isBareWord.lexeme.ne_nil
  | digits reversed line =>
    rw [hm] at hmode
    exact hword reversed line hmode.1 hmode.2.1 hmode.2.2.1
  | quote reversed line => simp [hm] at ho
  | comment => simp [hm] at ho

theorem line_flush (s : Scanner) : s.flush.line = s.line := by
  unfold flush
  split <;> rfl

/-- A character that is a piece of its own ends the pending word or number. -/
theorem flush (h : Has layout pending s) (ho : s.Outside) {p : Piece}
    (hp : ∀ before after, p.IsValid before after) (hchars : p.chars = [c]) (hc : c ∈ reserved)
    (hjoin : ¬ (pending = ['\''] ∧ c ∈ ['(', '[']))
    (hfound : s'.found = p.tokens s.line ++ s.flush.found)
    (hline : s'.line = s.line + lineBreaks [c]) (hmode : s'.mode = .idle) :
    HasTaken layout pending c s' := by
  refine h.close (lexemes pending ++ [p]) ?_ ?_ hc ?_ hline hmode
  · intro after
    refine Layout.isValid_append.2 ⟨lexemes_valid (h.isBareWord ho) fun d hd => ?_, hp _ _, trivial⟩
    obtain rfl : c = d := by simpa [hchars] using hd
    exact ⟨hc, hjoin⟩
  · simp [hchars]
  · rw [hfound, h.found_flush ho, h.line, Layout.tokens_append, List.reverse_append]
    simp [Layout.tokens, Nat.add_assoc]

/-! ### One character -/

theorem blankStep (h : Has layout pending s) (ho : s.Outside)
    (hc : c = ' ' ∨ c = '\t' ∨ c = '\r') : HasTaken layout pending c s.flush := by
  have hblank : isBlank c = true ∧ c ∈ reserved ∧ c ∉ ['(', '['] ∧ lineBreaks [c] = 0 := by
    obtain rfl | rfl | rfl := hc
    · decide
    · decide
    · decide
  obtain ⟨hvalid, hreserved, hbracket, hbreak⟩ := hblank
  refine h.flush ho (p := .blank c) (fun _ _ => hvalid) rfl hreserved (fun hjoin => ?_) rfl ?_
    s.mode_flush
  · exact hbracket hjoin.2
  · rw [line_flush, hbreak]
    rfl

theorem lineStep (h : Has layout pending s) (ho : s.Outside) :
    HasTaken layout pending '\n' s.flush.nextLine := by
  refine h.flush ho (p := .blank '\n') (fun _ _ => rfl) rfl (by decide) (by simp) rfl ?_
    s.mode_flush
  change s.flush.line + 1 = s.line + 1
  rw [line_flush]

theorem delimiter_facts (hc : isDelimiter c = true) : c ∈ reserved ∧ lineBreaks [c] = 0 := by
  refine ⟨mem_reserved_of_isDelimiter hc, List.count_eq_zero.2 fun hmem => ?_⟩
  cases List.mem_singleton.1 hmem
  exact absurd hc (by decide)

theorem pushStep (h : Has layout pending s) (ho : s.Outside) (hc : isDelimiter c = true)
    (hjoin : ¬ (pending = ['\''] ∧ c ∈ ['(', '['])) :
    HasTaken layout pending c (s.flush.push [c]) := by
  obtain ⟨hreserved, hbreak⟩ := delimiter_facts hc
  have hlexeme : IsLexeme [c] := .delimiter (isDelimiter_iff.1 hc)
  refine h.flush ho (p := .lexeme [c]) (fun _ _ => ?_) rfl hreserved hjoin ?_ ?_ s.mode_flush
  · exact Piece.isValid_of_reserved hlexeme (by simp) hreserved
  · change _ :: s.flush.found = _
    rw [line_flush]
    rfl
  · change s.flush.line = _
    rw [line_flush, hbreak]
    rfl

/-- A quote sign is one lexeme with the bracket after it. -/
theorem joinStep (h : Has layout pending s) {start : Nat} (hmode : s.mode = .word ['\''] start)
    (hc : c ∈ ['(', '[']) :
    HasTaken layout pending c { s with mode := .word [c, '\''] start }.flush := by
  have hdelimiter : isDelimiter c = true := by
    simp only [List.mem_cons, List.not_mem_nil, or_false] at hc
    obtain rfl | rfl := hc <;> decide
  obtain ⟨hreserved, hbreak⟩ := delimiter_facts hdelimiter
  have hholds := h.mode
  rw [hmode] at hholds
  obtain ⟨rfl, hstart, -⟩ := hholds
  refine h.close [.lexeme ['\'', c]] (fun _ => ⟨?_, trivial⟩) rfl hreserved ?_ ?_ rfl
  · exact Piece.isValid_of_reserved (.quotedOpener hc) (by simp) hreserved
  · simp [Scanner.flush, Layout.tokens, Piece.tokens, hstart]
  · simp [Scanner.flush, hbreak]

/-- A pending quote sign is the start of a word. -/
theorem mode_of_quoteSign (h : Has layout ['\''] s) (ho : s.Outside) :
    ∃ start, s.mode = .word ['\''] start := by
  have hholds := h.mode
  cases hmode : s.mode with
  | word reversed start =>
    rw [hmode] at hholds
    rw [List.reverse_eq_iff.1 hholds.1]
    exact ⟨start, rfl⟩
  | digits reversed start =>
    rw [hmode] at hholds
    exact absurd (hholds.2.2.2 '\'' (by simp)) (by decide)
  | idle =>
    rw [hmode] at hholds
    cases hholds
  | quote | comment => simp [Outside, hmode] at ho

theorem delimiterStep (h : Has layout pending s) (ho : s.Outside) (hc : isDelimiter c = true) :
    HasTaken layout pending c (s.delimiterStep c) := by
  unfold Scanner.delimiterStep
  split
  · next start hmode =>
    split
    · next hbracket => exact h.joinStep hmode (by simpa using hbracket)
    · next hbracket =>
      refine h.pushStep ho hc fun hjoin => hbracket ?_
      simpa using hjoin.2
  · next hmode =>
    refine h.pushStep ho hc fun hjoin => ?_
    obtain ⟨rfl, -⟩ := hjoin
    obtain ⟨start, hquote⟩ := h.mode_of_quoteSign ho
    exact hmode start hquote

theorem quoteStep (h : Has layout pending s) {reversed : List Char} {start : Nat}
    (hmode : s.mode = .quote reversed start) (c : Char) :
    HasTaken layout pending c (s.quoteStep reversed start c) := by
  have hholds := h.mode
  rw [hmode] at hholds
  obtain ⟨hpending, hstart, body, hopen, hbody⟩ := hholds
  by_cases hc : c = '"'
  · subst hc
    have hlexeme : IsLexeme (pending ++ ['"']) := hopen ▸ .string hbody
    refine h.close [.lexeme (pending ++ ['"'])] (fun _ => ⟨?_, trivial⟩) ?_ (by decide) ?_ ?_ ?_
    · exact Piece.isValid_of_reserved hlexeme (c := '"') (by simp) (by decide)
    · simp [Piece.chars]
    · simp [Scanner.quoteStep, Scanner.flush, Layout.tokens, Piece.tokens, ← hpending, hstart]
    · simp [Scanner.quoteStep, Scanner.flush, lineBreaks]
    · simp [Scanner.quoteStep]
  · have hnext : s.quoteStep reversed start c =
        { s with mode := .quote (c :: reversed) start, line := s.line + lineBreaks [c] } := by
      by_cases hline : c = '\n'
      · simp [Scanner.quoteStep, hline, nextLine, lineBreaks]
      · simp [Scanner.quoteStep, hline, hc, lineBreaks]
    rw [hnext]
    refine h.goOn rfl rfl ⟨by simp [hpending], hstart, body ++ [c], by simp [hopen], ?_⟩
    simp [hbody, Ne.symm hc]

theorem commentStep (h : Has layout pending s) (hmode : s.mode = .comment) (c : Char) :
    HasTaken layout pending c (s.commentStep c) := by
  have hholds := h.mode
  rw [hmode] at hholds
  obtain ⟨body, rfl, hbody⟩ := hholds
  by_cases hc : c = '\n'
  · subst hc
    refine h.close [.comment body, .blank '\n'] (fun _ => ⟨⟨hbody, h.boundary, ?_⟩, rfl, trivial⟩)
      ?_ (by decide) ?_ ?_ ?_
    · simp [Piece.chars]
    · simp [Piece.chars]
    · simp [Scanner.commentStep, nextLine, Layout.tokens, Piece.tokens]
    · simp [Scanner.commentStep, nextLine, lineBreaks]
    · simp [Scanner.commentStep, nextLine]
  · refine h.goOn ?_ ?_ ?_
    · simp [Scanner.commentStep, hc]
    · simp [Scanner.commentStep, hc, lineBreaks]
    · simp only [Scanner.commentStep, beq_iff_eq, hc, if_false, hmode]
      exact ⟨body ++ [c], rfl, by simp [hbody, Ne.symm hc]⟩

theorem pending_of_idle (h : Has layout pending s) (hmode : s.mode = .idle) : pending = [] := by
  have hholds := h.mode
  rw [hmode] at hholds
  exact hholds

theorem line_of_idle (h : Has layout pending s) (hmode : s.mode = .idle) :
    s.line = 1 + lineBreaks (Layout.chars layout) := by
  rw [h.line, h.pending_of_idle hmode, List.append_nil]

/-- The character goes on with what is pending, or starts something. -/
theorem modeStep (h : Has layout pending s) (hc : c ≠ '\n') {m : Mode}
    (hm : m.Holds (1 + lineBreaks (Layout.chars layout)) (pending ++ [c])) :
    HasTaken layout pending c { s with mode := m } := by
  refine h.goOn rfl ?_ hm
  simp [lineBreaks, hc]

theorem ne_newline (hc : c ∉ reserved) : c ≠ '\n' := by
  intro heq
  exact hc (by simp [heq, reserved])

theorem digitStep (h : Has layout pending s) (ho : s.Outside) (hc : c.isDigit = true) :
    HasTaken layout pending c (s.digitStep c) := by
  have hword := not_mem_reserved_of_isDigit hc
  have hholds := h.mode
  unfold Scanner.digitStep
  cases hmode : s.mode with
  | idle =>
    refine h.modeStep (ne_newline hword) ?_
    rw [h.pending_of_idle hmode]
    exact ⟨rfl, h.line_of_idle hmode, by simp, by simp [hc]⟩
  | word reversed start =>
    rw [hmode] at hholds
    obtain ⟨hpending, hstart, hname⟩ := hholds
    exact h.modeStep (ne_newline hword) ⟨by simp [hpending], hstart, hname.concat hword⟩
  | digits reversed start =>
    rw [hmode] at hholds
    obtain ⟨hpending, hstart, -, hall⟩ := hholds
    refine h.modeStep (ne_newline hword) ⟨by simp [hpending], hstart, by simp, ?_⟩
    exact List.forall_mem_append.2 ⟨hall, by simp [hc]⟩
  | quote reversed start => simp [Outside, hmode] at ho
  | comment => simp [Outside, hmode] at ho

theorem letterStep (h : Has layout pending s) (ho : s.Outside) (hc : c ∉ reserved)
    (hdigit : c.isDigit = false) (hcomment : s.mode = .idle → c ≠ '#')
    (hs : s.letterStep c = .ok s') : HasTaken layout pending c s' := by
  have hholds := h.mode
  unfold Scanner.letterStep at hs
  cases hmode : s.mode with
  | idle =>
    simp only [hmode] at hs
    cases hs
    refine h.modeStep (ne_newline hc) ?_
    rw [h.pending_of_idle hmode]
    refine ⟨rfl, h.line_of_idle hmode, c, [], rfl, hdigit, hcomment hmode, ?_⟩
    exact List.forall_mem_singleton.2 hc
  | word reversed start =>
    simp only [hmode] at hs
    cases hs
    rw [hmode] at hholds
    obtain ⟨hpending, hstart, hname⟩ := hholds
    exact h.modeStep (ne_newline hc) ⟨by simp [hpending], hstart, hname.concat hc⟩
  | digits reversed start => simp [hmode] at hs
  | quote reversed start => simp [Outside, hmode] at ho
  | comment => simp [Outside, hmode] at ho

theorem openQuote (h : Has layout pending s) (ho : s.Outside) (hs : s.openQuote = .ok s') :
    HasTaken layout pending '"' s' := by
  unfold Scanner.openQuote at hs
  cases hmode : s.mode with
  | idle =>
    simp only [hmode] at hs
    cases hs
    refine h.modeStep (by decide) ?_
    rw [h.pending_of_idle hmode]
    exact ⟨rfl, h.line_of_idle hmode, [], rfl, List.not_mem_nil⟩
  | word reversed start => simp [hmode] at hs
  | digits reversed start => simp [hmode] at hs
  | quote reversed start => simp [Outside, hmode] at ho
  | comment => simp [Outside, hmode] at ho

end Has

/-- Outside strings and comments a character ends what is pending, goes on with it, or starts
something. -/
theorem plainStep_cases (s : Scanner) (c : Char) :
    ((c = ' ' ∨ c = '\t' ∨ c = '\r') ∧ s.plainStep c = .ok s.flush) ∨
    (c = '\n' ∧ s.plainStep c = .ok s.flush.nextLine) ∨
    (c = '"' ∧ s.plainStep c = s.openQuote) ∨
    (c = '#' ∧ s.mode = .idle ∧ s.plainStep c = .ok { s with mode := .comment }) ∨
    (isDelimiter c = true ∧ s.plainStep c = .ok (s.delimiterStep c)) ∨
    (isWordChar c = true ∧ c.isDigit = true ∧ s.plainStep c = .ok (s.digitStep c)) ∨
    (isWordChar c = true ∧ c.isDigit = false ∧ (s.mode = .idle → c ≠ '#') ∧
      s.plainStep c = s.letterStep c) := by
  unfold plainStep
  split
  · next hc => simp_all [or_assoc]
  split
  · next hc => simp_all
  split
  · next hc => simp_all
  split
  · next hc => simp_all
  split
  · next hc => simp_all
  split
  · next h1 h2 h3 h4 h5 hc => simp_all [isWordChar]
  · next h1 h2 h3 h4 h5 hc =>
    have hhash : s.mode = .idle → c ≠ '#' := by
      rintro hmode rfl
      simp [hmode] at h4
    refine .inr (.inr (.inr (.inr (.inr (.inr ⟨?_, by simpa using hc, hhash, rfl⟩)))))
    simp_all [isWordChar]

namespace Has

variable {layout : List Piece} {pending : List Char} {s s' : Scanner} {c : Char}

theorem plainStep (h : Has layout pending s) (ho : s.Outside) (hs : s.plainStep c = .ok s') :
    HasTaken layout pending c s' := by
  obtain ⟨hc, heq⟩ | ⟨rfl, heq⟩ | ⟨rfl, heq⟩ | ⟨rfl, hmode, heq⟩ | ⟨hc, heq⟩ | ⟨-, hdigit, heq⟩ |
    ⟨hc, hdigit, hcomment, heq⟩ := s.plainStep_cases c
  · cases heq.symm.trans hs
    exact h.blankStep ho hc
  · cases heq.symm.trans hs
    exact h.lineStep ho
  · exact h.openQuote ho (heq.symm.trans hs)
  · cases heq.symm.trans hs
    refine h.modeStep (by decide) ?_
    rw [h.pending_of_idle hmode]
    exact ⟨[], rfl, List.not_mem_nil⟩
  · cases heq.symm.trans hs
    exact h.delimiterStep ho hc
  · cases heq.symm.trans hs
    exact h.digitStep ho hdigit
  · exact h.letterStep ho (isWordChar_iff.1 hc) hdigit hcomment (heq.symm.trans hs)

/-- What the scanner has read stays a layout with something pending. -/
theorem step (h : Has layout pending s) (hs : s.step c = .ok s') :
    HasTaken layout pending c s' := by
  cases hmode : s.mode with
  | quote reversed start =>
    simp only [Scanner.step, hmode] at hs
    cases hs
    exact h.quoteStep hmode c
  | comment =>
    simp only [Scanner.step, hmode] at hs
    cases hs
    exact h.commentStep hmode c
  | _ =>
    have ho : s.Outside := by simp [Outside, hmode]
    rw [step_of_outside ho] at hs
    exact h.plainStep ho hs

/-- The fault is that what is pending cannot be read on with the character. -/
def Blames (layout : List Piece) (pending : List Char) (c : Char) (fault : Fault) : Prop :=
  ∃ cause, fault = .lexical (1 + lineBreaks (Layout.chars layout)) cause ∧
    ∀ rest, Offence cause pending (c :: rest)

theorem openQuote_blames (h : Has layout pending s) (ho : s.Outside) {fault : Fault}
    (hs : s.openQuote = .error fault) : Blames layout pending '"' fault := by
  have hholds := h.mode
  unfold Scanner.openQuote at hs
  cases hmode : s.mode with
  | idle => simp [hmode] at hs
  | word reversed start =>
    rw [hmode] at hholds hs
    obtain ⟨-, rfl, hname⟩ := hholds
    cases hs
    exact ⟨_, rfl, fun rest => .quoteInside hname.isBareWord⟩
  | digits reversed start =>
    rw [hmode] at hholds hs
    obtain ⟨-, rfl, hne, hall⟩ := hholds
    cases hs
    exact ⟨_, rfl, fun rest => .quoteInside (isBareWord_of_digits hne hall)⟩
  | quote reversed start => simp [Outside, hmode] at ho
  | comment => simp [Outside, hmode] at ho

theorem letterStep_blames (h : Has layout pending s) (hc : isWordChar c = true)
    (hdigit : c.isDigit = false) {fault : Fault} (hs : s.letterStep c = .error fault) :
    Blames layout pending c fault := by
  have hholds := h.mode
  unfold Scanner.letterStep at hs
  cases hmode : s.mode with
  | digits reversed start =>
    rw [hmode] at hholds hs
    obtain ⟨-, rfl, hne, hall⟩ := hholds
    cases hs
    exact ⟨_, rfl, fun rest => .strayCharacter hne hall hc hdigit⟩
  | _ => simp [hmode] at hs

/-- A character that cannot be read comes after the literal that it offends. -/
theorem blames (h : Has layout pending s) {fault : Fault} (hs : s.step c = .error fault) :
    Blames layout pending c fault := by
  cases hmode : s.mode with
  | quote reversed start => simp [Scanner.step, hmode] at hs
  | comment => simp [Scanner.step, hmode] at hs
  | _ =>
    have ho : s.Outside := by simp [Outside, hmode]
    rw [step_of_outside ho] at hs
    obtain ⟨-, heq⟩ | ⟨-, heq⟩ | ⟨rfl, heq⟩ | ⟨-, -, heq⟩ | ⟨-, heq⟩ | ⟨-, -, heq⟩ |
      ⟨hc, hdigit, -, heq⟩ := s.plainStep_cases c
    case inr.inr.inl => exact h.openQuote_blames ho (heq.symm.trans hs)
    case inr.inr.inr.inr.inr.inr => exact h.letterStep_blames hc hdigit (heq.symm.trans hs)
    all_goals cases heq.symm.trans hs

end Has

/-! ### Whole sources -/

/-- A scanner that starts on a text. -/
def fresh : Scanner := { source := [] }

/-- Read from its beginning, the text is a layout, after which the scanner was between tokens,
and something pending. -/
structure Reached (layout : List Piece) (pending : List Char) (s : Scanner) : Prop where
  has : Has layout pending s
  run : fresh.advance (Layout.chars layout ++ pending) = (none, s)
  between : ∃ s₀ : Scanner, s₀.mode = .idle ∧ fresh.advance (Layout.chars layout) = (none, s₀)

theorem Has.mode_idle {layout : List Piece} {s : Scanner} (h : Has layout [] s) :
    s.mode = .idle := by
  have hholds := h.mode
  cases hmode : s.mode with
  | idle => rfl
  | _ => simp [hmode, Mode.Holds, IsName] at hholds

theorem advance_concat {s s₁ s₂ : Scanner} {text : List Char} {c : Char}
    (hrun : s.advance text = (none, s₁)) (hstep : s₁.step c = .ok s₂) :
    s.advance (text ++ [c]) = (none, s₂) := by
  rw [advance_append hrun, advance_cons_of_ok hstep]
  rfl

theorem Reached.step {layout : List Piece} {pending : List Char} {s s' : Scanner} {c : Char}
    (h : Reached layout pending s) (hs : s.step c = .ok s') :
    ∃ layout' pending', Layout.chars layout' ++ pending' = Layout.chars layout ++ pending ++ [c] ∧
      Reached layout' pending' s' := by
  have hrun := advance_concat h.run hs
  obtain hhas | ⟨more, hchars, hhas⟩ := h.has.step hs
  · rw [List.append_assoc] at hrun
    exact ⟨layout, pending ++ [c], by simp, hhas, hrun, h.between⟩
  · have htext : Layout.chars (layout ++ more) = Layout.chars layout ++ pending ++ [c] := by
      simp [hchars]
    refine ⟨layout ++ more, [], by simp [hchars], hhas, ?_, s', hhas.mode_idle, ?_⟩
    · rw [List.append_nil, htext, hrun]
    · rw [htext, hrun]

/-- A run through a text is a layout of it, or breaks off at a literal that cannot be read on. -/
theorem Reached.advance {layout : List Piece} {pending : List Char} {s : Scanner}
    (h : Reached layout pending s) (text : List Char) :
    ∃ layout' pending', Reached layout' pending' (s.advance text).2 ∧
      (((s.advance text).1 = none ∧
          Layout.chars layout' ++ pending' = Layout.chars layout ++ pending ++ text) ∨
        ∃ fault c rest, (s.advance text).1 = some fault ∧ Has.Blames layout' pending' c fault ∧
          Layout.chars layout' ++ pending' ++ c :: rest =
            Layout.chars layout ++ pending ++ text) := by
  induction text generalizing s layout pending with
  | nil => exact ⟨layout, pending, h, .inl ⟨rfl, by simp⟩⟩
  | cons c rest ih =>
    cases hstep : s.step c with
    | ok s' =>
      obtain ⟨layout', pending', htext, hreached⟩ := h.step hstep
      have hrest := ih hreached
      rw [htext] at hrest
      rw [advance_cons_of_ok hstep]
      simpa using hrest
    | error fault =>
      have hrun : s.advance (c :: rest) = (some fault, s) := by rw [Scanner.advance, hstep]
      rw [hrun]
      exact ⟨layout, pending, h, .inr ⟨fault, c, rest, rfl, h.has.blames hstep, rfl⟩⟩

end Scanner

/-! ## Tokens and faults of a source -/

namespace Scanner

theorem tokenize_of_fault {source : String} {fault : Fault} {s : Scanner}
    (h : fresh.advance source.toList = (some fault, s)) : tokenize source = .error fault := by
  unfold tokenize scan ofString
  rw [show ({ source := [] } : Scanner).advance source.toList = _ from h]

theorem tokenize_of_quote {source : String} {s : Scanner} {reversed : List Char} {start : Nat}
    (h : fresh.advance source.toList = (none, s)) (hmode : s.mode = .quote reversed start) :
    tokenize source = .error (.lexical start .unterminatedString) := by
  unfold tokenize scan ofString
  rw [show ({ source := [] } : Scanner).advance source.toList = _ from h]
  simp only [hmode]

theorem tokenize_of_mode {source : String} {s : Scanner}
    (h : fresh.advance source.toList = (none, s))
    (hmode : ∀ reversed start, s.mode ≠ .quote reversed start) :
    tokenize source = .ok s.flush.found.reverse := by
  unfold tokenize scan ofString
  rw [show ({ source := [] } : Scanner).advance source.toList = _ from h]
  dsimp only
  split
  · next reversed start hquote => exact absurd hquote (hmode reversed start)
  · rfl

/-- At the end of a source, a pending word or number is a token and a pending comment is
skipped. -/
theorem Has.accounted {layout : List Piece} {pending : List Char} {s : Scanner}
    (h : Has layout pending s) (hmode : s.Outside ∨ s.mode = .comment) :
    ∃ spans, Accounted (Layout.chars layout ++ pending) s.flush.found.reverse spans := by
  -- Either way the layout goes on to the end, without any text after it.
  obtain ⟨more, hchars, hfound, hvalid⟩ : ∃ more, Layout.chars more = pending ∧
      s.flush.found.reverse = Layout.tokens 1 (layout ++ more) ∧
      Layout.IsValid (Layout.chars layout) [] more := by
    obtain ho | hcomment := hmode
    · refine ⟨lexemes pending, by simp, ?_, lexemes_valid (h.isBareWord ho) (by simp)⟩
      rw [h.found_flush ho, h.found, Layout.tokens_append]
      simp
    · have hholds := h.mode
      rw [hcomment] at hholds
      obtain ⟨body, rfl, hbody⟩ := hholds
      refine ⟨[.comment body], by simp [Piece.chars], ?_, ⟨hbody, h.boundary, by simp⟩, trivial⟩
      rw [Layout.tokens_append]
      simp [Scanner.flush, hcomment, h.found, Layout.tokens, Piece.tokens]
  have haccounted := Layout.accounted (Layout.isValid_append.2 ⟨h.valid _, hvalid⟩)
  rw [Layout.chars_append, hchars] at haccounted
  rw [hfound]
  exact ⟨_, haccounted⟩

theorem Reached.tokenize_before {layout : List Piece} {pending : List Char} {s : Scanner}
    (h : Reached layout pending s) :
    ∃ tokens, tokenize (String.ofList (Layout.chars layout)) = .ok tokens := by
  obtain ⟨s₀, hidle, hrun⟩ := h.between
  refine ⟨_, tokenize_of_mode (s := s₀) ?_ fun reversed start hquote => ?_⟩
  · rw [String.toList_ofList, hrun]
  · rw [hidle] at hquote
    cases hquote

theorem reached_fresh : Reached [] [] fresh where
  has := ⟨fun _ => trivial, rfl, rfl, rfl, by simp [WordEnded]⟩
  run := rfl
  between := ⟨fresh, rfl, rfl⟩

end Scanner

/-- The tokens of a text are those that were found when it is through, a pending one included. -/
theorem exists_of_tokenize {source : String} {tokens : List Token}
    (h : tokenize source = .ok tokens) :
    ∃ s : Scanner, Scanner.advance { source := [] } source.toList = (none, s) ∧
      tokens = s.flush.found.reverse ∧ (s.Outside ∨ s.mode = .comment) := by
  unfold tokenize Scanner.scan Scanner.ofString at h
  dsimp only at h
  split at h
  · cases h
  · next s hadvance =>
    refine ⟨s, hadvance, ?_⟩
    split at h
    · cases h
    · next hmode =>
      cases h
      refine ⟨rfl, ?_⟩
      cases hm : s.mode with
      | quote reversed start => exact absurd hm (hmode reversed start)
      | comment => exact .inr rfl
      | _ => exact .inl (by simp [Scanner.Outside, hm])

/-- The tokens of a text stand in it. -/
theorem accounted_of_tokenize {source : String} {tokens : List Token}
    (h : tokenize source = .ok tokens) : ∃ spans, Accounted source.toList tokens spans := by
  obtain ⟨s, hadvance, rfl, hmode⟩ := exists_of_tokenize h
  have hrun : Scanner.fresh.advance source.toList = (none, s) := hadvance
  obtain ⟨layout, pending, hreached, hend⟩ := Scanner.reached_fresh.advance source.toList
  rw [hrun] at hreached hend
  obtain ⟨-, htext⟩ | ⟨fault, c, rest, hfault, -⟩ := hend
  · have hsource : Layout.chars layout ++ pending = source.toList := htext
    rw [← hsource]
    exact hreached.has.accounted hmode
  · cases hfault

/-- A literal in the source cannot be read on, and the fault is on the line on which it starts. It
starts outside strings and comments and not inside a word, and what stands before it has tokens. -/
structure BreaksOff (source : List Char) (fault : Fault) (before literal rest : List Char)
    (cause : LexicalCause) : Prop where
  source_eq : source = before ++ (literal ++ rest)
  fault_eq : fault = .lexical (1 + lineBreaks before) cause
  offence : Offence cause literal rest
  clear : Clear source before.length
  apart : WordEnded before
  tokens : ∃ tokens, tokenize (String.ofList before) = .ok tokens

theorem Scanner.Reached.breaksOff {layout : List Piece} {pending rest : List Char} {s : Scanner}
    (h : Reached layout pending s) {cause : LexicalCause} (hoffence : Offence cause pending rest) :
    BreaksOff (Layout.chars layout ++ (pending ++ rest))
      (.lexical (1 + lineBreaks (Layout.chars layout)) cause) (Layout.chars layout) pending rest
      cause where
  source_eq := rfl
  fault_eq := rfl
  offence := hoffence
  clear := (h.has.valid _).clear
  apart := h.has.boundary
  tokens := h.tokenize_before

theorem exists_breaksOff_of_tokenize {source : String} {fault : Fault}
    (h : tokenize source = .error fault) :
    ∃ before literal rest cause, BreaksOff source.toList fault before literal rest cause := by
  obtain ⟨layout, pending, hreached, hend⟩ := Scanner.reached_fresh.advance source.toList
  cases hrun : Scanner.fresh.advance source.toList with
  | mk outcome s =>
    rw [hrun] at hreached hend
    obtain ⟨rfl, htext⟩ | ⟨found, c, rest, rfl, ⟨cause, rfl, hoffence⟩, htext⟩ := hend
    · -- Without a fault on the way it is the end of the text that a string runs into.
      have hsource : Layout.chars layout ++ pending = source.toList := htext
      cases hmode : s.mode with
      | quote reversed start =>
        have hholds := hreached.has.mode
        rw [hmode] at hholds
        obtain ⟨-, rfl, body, rfl, hbody⟩ := hholds
        rw [Scanner.tokenize_of_quote hrun hmode] at h
        cases h
        have hbreaks := hreached.breaksOff (.unterminatedString hbody)
        rw [List.append_nil, hsource] at hbreaks
        exact ⟨_, _, _, _, hbreaks⟩
      | _ =>
        rw [Scanner.tokenize_of_mode hrun (by simp [hmode])] at h
        cases h
    · have hsource : Layout.chars layout ++ (pending ++ c :: rest) = source.toList := by
        rw [← List.append_assoc]
        exact htext
      rw [Scanner.tokenize_of_fault hrun] at h
      cases h
      have hbreaks := hreached.breaksOff (hoffence rest)
      rw [hsource] at hbreaks
      exact ⟨_, _, _, _, hbreaks⟩

/-- What the outcome of scanning has to say about a source: tokens come with the places where they
stand, a fault with the literal that it is about. -/
def Explained (source : List Char) : Except Fault (List Token) → Prop
  | .ok tokens => ∃ spans, Accounted source tokens spans
  | .error fault => ∃ before literal rest cause, BreaksOff source fault before literal rest cause

/-- **The scanner loses nothing and invents nothing**, and reports faults where they start. -/
theorem tokenize_explained (source : String) : Explained source.toList (tokenize source) := by
  cases h : tokenize source with
  | ok tokens => exact accounted_of_tokenize h
  | error fault => exact exists_breaksOff_of_tokenize h

/-- A `#` in a string or a name is part of it, and elsewhere hides the rest of its line. -/
example : tokenize "\"a # b\" x#1 # c\ny" =
    .ok [⟨"\"a # b\"", 1⟩, ⟨"x#1", 1⟩, ⟨"y", 2⟩] := rfl

end ExprShell
