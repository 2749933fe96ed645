/-
What the scanner makes of a text, put together from what it makes of the parts. A text is taken
with the texts of its tokens (`Scanner.Reads`): a scanner that is between tokens reads it
through, and once the last token is ended these are the ones it has found. The lines of the
tokens are left open.

Parts may be set next to each other where the scanner ends the pending token of the first: at a
space (`Reads.space`), and at the delimiters of a list (`Reads.closed`, `Reads.opened`).
-/
import ExprShell.Token.Scanner

namespace ExprShell

namespace Scanner

/-! ## Steps -/

/-- Inside neither a string nor a comment. -/
def Outside (s : Scanner) : Prop :=
  match s.mode with
  | .idle | .word .. | .digits .. => True
  | .quote .. | .comment => False

/-- The texts of the tokens found, the latest first, the pending one included. -/
def texts (s : Scanner) : List String :=
  s.flush.found.map (·.text)

theorem step_of_outside {s : Scanner} (h : s.Outside) (c : Char) : s.step c = s.plainStep c := by
  unfold Outside at h
  unfold step
  cases hmode : s.mode with
  | idle => rfl
  | word pending start => rfl
  | digits pending start => rfl
  | quote pending start => simp [hmode] at h
  | comment => simp [hmode] at h

@[simp] theorem mode_flush (s : Scanner) : s.flush.mode = .idle := by
  unfold flush
  split <;> rfl

theorem outside_of_idle {s : Scanner} (h : s.mode = .idle) : s.Outside := by
  simp [Outside, h]

theorem texts_of_idle {s : Scanner} (h : s.mode = .idle) : s.texts = s.found.map (·.text) := by
  simp [texts, flush, h]

theorem advance_cons_of_ok {s s' : Scanner} {c : Char} (h : s.step c = .ok s')
    (rest : List Char) : s.advance (c :: rest) = s'.advance rest := by
  rw [advance, h]

theorem advance_append {s s' : Scanner} {xs : List Char} (h : s.advance xs = (none, s'))
    (ys : List Char) : s.advance (xs ++ ys) = s'.advance ys := by
  induction xs generalizing s with
  | nil =>
    cases h
    rfl
  | cons c xs ih =>
    rw [List.cons_append]
    cases hstep : s.step c with
    | ok next =>
      rw [advance_cons_of_ok hstep] at h ⊢
      exact ih h
    | error fault => simp [advance, hstep] at h

theorem texts_flush (s : Scanner) : s.flush.texts = s.texts :=
  texts_of_idle s.mode_flush

/-- A space ends the pending token. -/
theorem step_space {s : Scanner} (h : s.Outside) : s.step ' ' = .ok s.flush := by
  rw [step_of_outside h]
  rfl

/-- Delimiters that no quote sign joins. -/
def isClosing (c : Char) : Bool :=
  c ∈ [')', ']', '\x7d', ';']

/-- Delimiters that something opens with. -/
def isOpening (c : Char) : Bool :=
  c ∈ ['(', '[', '\x7b']

theorem step_of_isDelimiter {s : Scanner} (h : s.Outside) {c : Char} (hc : isDelimiter c = true) :
    s.step c = .ok (s.delimiterStep c) := by
  rw [step_of_outside h]
  simp only [isDelimiter, List.mem_cons, List.not_mem_nil, or_false, decide_eq_true_eq] at hc
  obtain rfl | rfl | rfl | rfl | rfl | rfl | rfl := hc
  all_goals rfl

/-- A closing delimiter ends the pending token and is one itself. -/
theorem step_closing {s : Scanner} (h : s.Outside) {c : Char} (hc : isClosing c = true) :
    s.step c = .ok (s.flush.push [c]) := by
  simp only [isClosing, List.mem_cons, List.not_mem_nil, or_false, decide_eq_true_eq] at hc
  have hdelimiter : isDelimiter c = true := by
    obtain rfl | rfl | rfl | rfl := hc
    all_goals decide
  have hjoin : (c == '(' || c == '[') = false := by
    obtain rfl | rfl | rfl | rfl := hc
    all_goals decide
  rw [step_of_isDelimiter h hdelimiter]
  unfold delimiterStep
  split
  · rw [hjoin]
    rfl
  · rfl

/-- An opening delimiter between tokens is one itself. -/
theorem step_opening {s : Scanner} (h : s.mode = .idle) {c : Char} (hc : isOpening c = true) :
    s.step c = .ok (s.flush.push [c]) := by
  have hdelimiter : isDelimiter c = true := by
    simp only [isOpening, List.mem_cons, List.not_mem_nil, or_false, decide_eq_true_eq] at hc
    obtain rfl | rfl | rfl := hc
    all_goals decide
  rw [step_of_isDelimiter (outside_of_idle h) hdelimiter]
  simp only [delimiterStep, h]

/-- Characters that go on with a word. -/
def isWordChar (c : Char) : Bool :=
  c != ' ' && c != '\t' && c != '\r' && c != '\n' && c != '"' && !isDelimiter c

/-- Outside strings and comments, a character of a word is a digit or a letter. -/
theorem step_wordChar {s : Scanner} (h : s.Outside) {c : Char} (hc : isWordChar c = true)
    (hcomment : s.mode = .idle → c ≠ '#') :
    s.step c = if c.isDigit then .ok (s.digitStep c) else s.letterStep c := by
  rw [step_of_outside h]
  simp only [isWordChar, Bool.and_eq_true, bne_iff_ne, ne_eq, Bool.not_eq_true'] at hc
  obtain ⟨⟨⟨⟨⟨hspace, htab⟩, hreturn⟩, hline⟩, hquote⟩, hdelimiter⟩ := hc
  have hhash : (c == '#' && s.mode == .idle) = false := by
    simp only [Bool.and_eq_false_imp, beq_iff_eq, beq_eq_false_iff_ne]
    exact fun heq hidle => hcomment hidle heq
  simp [plainStep, hspace, htab, hreturn, hline, hquote, hdelimiter, hhash]

/-- A letter between tokens starts a word. -/
theorem step_letter {s : Scanner} (h : s.mode = .idle) {c : Char} (hc : isWordChar c = true)
    (hdigit : c.isDigit = false) (hcomment : c ≠ '#') :
    s.step c = .ok { s with mode := .word [c] s.line } := by
  rw [step_wordChar (outside_of_idle h) hc fun _ => hcomment]
  simp [letterStep, h, hdigit]

/-- Inside a word, digits and letters are alike. -/
theorem step_word {s : Scanner} {pending : List Char} {start : Nat}
    (h : s.mode = .word pending start) {c : Char} (hc : isWordChar c = true) :
    s.step c = .ok { s with mode := .word (c :: pending) start } := by
  rw [step_wordChar (by simp [Outside, h]) hc (by simp [h])]
  cases hdigit : c.isDigit with
  | true => simp [digitStep, h]
  | false => simp [letterStep, h]

theorem isWordChar_of_isDigit {c : Char} (h : c.isDigit = true) : isWordChar c = true := by
  have hne : ∀ d : Char, d.isDigit = false → c ≠ d := by
    rintro d hd rfl
    rw [h] at hd
    cases hd
  simp [isWordChar, isDelimiter, hne ' ' rfl, hne '\t' rfl, hne '\r' rfl, hne '\n' rfl,
    hne '"' rfl, hne '(' rfl, hne ')' rfl, hne '[' rfl, hne ']' rfl, hne '\x7b' rfl,
    hne '\x7d' rfl, hne ';' rfl]

/-- A digit between tokens starts a number. -/
theorem step_digit_of_idle {s : Scanner} (h : s.mode = .idle) {c : Char}
    (hdigit : c.isDigit = true) : s.step c = .ok { s with mode := .digits [c] s.line } := by
  have hcomment : c ≠ '#' := by
    rintro rfl
    exact absurd hdigit (by decide)
  rw [step_wordChar (outside_of_idle h) (isWordChar_of_isDigit hdigit) fun _ => hcomment]
  simp [digitStep, h, hdigit]

theorem step_digit {s : Scanner} {pending : List Char} {start : Nat}
    (h : s.mode = .digits pending start) {c : Char} (hdigit : c.isDigit = true) :
    s.step c = .ok { s with mode := .digits (c :: pending) start } := by
  rw [step_wordChar (by simp [Outside, h]) (isWordChar_of_isDigit hdigit) (by simp [h])]
  simp [digitStep, h, hdigit]

/-- A quote sign and the bracket after it are one token. -/
theorem advance_joined {s : Scanner} (h : s.mode = .idle) {c : Char} (hc : c ∈ ['(', '[']) :
    s.advance ['\'', c] =
      (none, { s with mode := .idle, found := ⟨String.ofList ['\'', c], s.line⟩ :: s.found }) := by
  have hquote : s.step '\'' = .ok { s with mode := .word ['\''] s.line } :=
    step_letter h (by decide) (by decide) (by decide)
  rw [advance_cons_of_ok hquote]
  simp only [List.mem_cons, List.not_mem_nil, or_false] at hc
  obtain rfl | rfl := hc
  · rfl
  · rfl

theorem advance_quoted {s : Scanner} (h : s.mode = .idle) : s.advance ['\'', '['] =
    (none, { s with mode := .idle, found := ⟨"'[", s.line⟩ :: s.found }) :=
  advance_joined h (by decide)

/-! ## Texts and tokens -/

/-- A scanner between tokens reads the characters through, and what it has found then are
tokens of these texts. -/
def Reads (chars : List Char) (found : List String) : Prop :=
  ∀ s : Scanner, s.mode = .idle →
    ∃ s', s.advance chars = (none, s') ∧ s'.Outside ∧ s'.texts = found.reverse ++ s.texts

namespace Reads

variable {xs ys : List Char} {found others : List String}

theorem nil : Reads [] [] :=
  fun s h => ⟨s, rfl, outside_of_idle h, rfl⟩

theorem space (hx : Reads xs found) (hy : Reads ys others) :
    Reads (xs ++ ' ' :: ys) (found ++ others) := by
  intro s h
  obtain ⟨s₁, hadvance₁, houtside₁, htexts₁⟩ := hx s h
  obtain ⟨s₂, hadvance₂, houtside₂, htexts₂⟩ := hy s₁.flush s₁.mode_flush
  refine ⟨s₂, ?_, houtside₂, ?_⟩
  · rw [advance_append hadvance₁, advance_cons_of_ok (step_space houtside₁), hadvance₂]
  · rw [htexts₂, texts_flush, htexts₁]
    simp

theorem closed (hx : Reads xs found) {c : Char} (hc : isClosing c = true) :
    Reads (xs ++ [c]) (found ++ [String.ofList [c]]) := by
  intro s h
  obtain ⟨s₁, hadvance, houtside, htexts⟩ := hx s h
  have hmode : (s₁.flush.push [c]).mode = .idle := s₁.mode_flush
  refine ⟨s₁.flush.push [c], ?_, outside_of_idle hmode, ?_⟩
  · rw [advance_append hadvance, advance_cons_of_ok (step_closing houtside hc)]
    rfl
  · rw [texts_of_idle hmode]
    change String.ofList [c] :: s₁.texts = _
    rw [htexts]
    simp

theorem opened (hx : Reads xs found) {c : Char} (hc : isOpening c = true) :
    Reads (c :: xs) (String.ofList [c] :: found) := by
  intro s h
  have hmode : (s.flush.push [c]).mode = .idle := s.mode_flush
  obtain ⟨s₁, hadvance, houtside, htexts⟩ := hx (s.flush.push [c]) hmode
  refine ⟨s₁, ?_, houtside, ?_⟩
  · rw [advance_cons_of_ok (step_opening h hc), hadvance]
  · rw [htexts, texts_of_idle hmode]
    change _ ++ String.ofList [c] :: s.texts = _
    simp

/-- A quote sign joins the bracket after it. -/
theorem joined (hx : Reads xs found) {c : Char} (hc : c ∈ ['(', '[']) :
    Reads ('\'' :: c :: xs) (String.ofList ['\'', c] :: found) := by
  intro s h
  obtain ⟨s₁, hadvance, houtside, htexts⟩ :=
    hx { s with mode := .idle, found := ⟨String.ofList ['\'', c], s.line⟩ :: s.found } rfl
  refine ⟨s₁, (advance_append (advance_joined h hc) xs).trans hadvance, houtside, ?_⟩
  rw [htexts, texts_of_idle rfl, texts_of_idle h]
  simp

theorem quoted (hx : Reads xs found) : Reads ('\'' :: '[' :: xs) ("'[" :: found) :=
  hx.joined (by decide)

/-! ### Words and numbers -/

/-- A token that every character goes on with takes in all of them. -/
theorem advance_pending {m : List Char → Mode} {p : Char → Bool}
    (hstep : ∀ (s : Scanner) (pending : List Char) (c : Char), s.mode = m pending → p c = true →
      s.step c = .ok { s with mode := m (c :: pending) })
    {s : Scanner} {pending : List Char} (h : s.mode = m pending) (hx : ∀ c ∈ xs, p c = true) :
    s.advance xs = (none, { s with mode := m (xs.reverse ++ pending) }) := by
  induction xs generalizing s pending with
  | nil => simp [advance, ← h]
  | cons c xs ih =>
    rw [advance_cons_of_ok (hstep s pending c h (hx c List.mem_cons_self)),
      ih rfl fun d hd => hx d (List.mem_cons_of_mem c hd)]
    simp

theorem word {c : Char} (hdigit : c.isDigit = false) (hcomment : c ≠ '#')
    (hx : ∀ d ∈ c :: xs, isWordChar d = true) : Reads (c :: xs) [String.ofList (c :: xs)] := by
  intro s h
  have hstep := step_letter h (hx c List.mem_cons_self) hdigit hcomment
  have hrest := advance_pending (s := { s with mode := .word [c] s.line })
    (m := (.word · s.line)) (fun _ _ _ h hc => step_word h hc) rfl
    fun d hd => hx d (List.mem_cons_of_mem c hd)
  refine ⟨_, (advance_cons_of_ok hstep xs).trans hrest, trivial, ?_⟩
  rw [texts_of_idle h]
  simp [texts, flush]

theorem digits {c : Char} (hx : ∀ d ∈ c :: xs, d.isDigit = true) :
    Reads (c :: xs) [String.ofList (c :: xs)] := by
  intro s h
  have hstep := step_digit_of_idle h (hx c List.mem_cons_self)
  have hrest := advance_pending (s := { s with mode := .digits [c] s.line })
    (m := (.digits · s.line)) (fun _ _ _ h hc => step_digit h hc) rfl
    fun d hd => hx d (List.mem_cons_of_mem c hd)
  refine ⟨_, (advance_cons_of_ok hstep xs).trans hrest, trivial, ?_⟩
  rw [texts_of_idle h]
  simp [texts, flush]

/-! ### Strings -/

/-- Inside a string a character counts as it is; a line break also starts a line. -/
theorem step_quote {s : Scanner} {pending : List Char} {start : Nat}
    (h : s.mode = .quote pending start) {c : Char} (hc : c ≠ '"') :
    ∃ line, s.step c = .ok { s with line, mode := .quote (c :: pending) start } := by
  by_cases hline : c = '\n'
  · exact ⟨s.line + 1, by simp [step, h, quoteStep, hline, nextLine]⟩
  · exact ⟨s.line, by simp [step, h, quoteStep, hline, hc]⟩

/-- Inside a string everything up to the double quote is taken in. -/
theorem advance_quote {s : Scanner} {pending : List Char} {start : Nat}
    (h : s.mode = .quote pending start) (hx : '"' ∉ xs) :
    ∃ line, s.advance (xs ++ ['"']) =
      (none, { s with
        line
        mode := .idle
        found := ⟨String.ofList (pending.reverse ++ xs ++ ['"']), start⟩ :: s.found }) := by
  induction xs generalizing s pending with
  | nil => exact ⟨s.line, by simp [advance, step, h, quoteStep, flush]⟩
  | cons c xs ih =>
    have hc : c ≠ '"' := fun heq => hx (heq ▸ List.mem_cons_self)
    obtain ⟨line, hstep⟩ := step_quote h hc
    obtain ⟨line', hrest⟩ := ih (s := { s with line, mode := .quote (c :: pending) start }) rfl
      fun hmem => hx (List.mem_cons_of_mem c hmem)
    refine ⟨line', ?_⟩
    rw [List.cons_append, advance_cons_of_ok hstep, hrest]
    simp

theorem string (hx : '"' ∉ xs) :
    Reads ('"' :: xs ++ ['"']) [String.ofList ('"' :: xs ++ ['"'])] := by
  intro s h
  have hopen : s.step '"' = .ok { s with mode := .quote ['"'] s.line } := by
    rw [step_of_outside (outside_of_idle h)]
    change s.openQuote = _
    simp [openQuote, h]
  obtain ⟨line, hrest⟩ := advance_quote (s := { s with mode := .quote ['"'] s.line }) rfl hx
  refine ⟨_, (advance_cons_of_ok hopen _).trans hrest, trivial, ?_⟩
  rw [texts_of_idle rfl, texts_of_idle h]
  simp

end Reads

/-! ## Whole sources -/

end Scanner

/-- The tokens of a text are those that the scanner finds on the way through it. -/
theorem tokenize_of_reads {source : String} {found : List String}
    (h : Scanner.Reads source.toList found) :
    ∃ tokens, tokenize source = .ok tokens ∧ tokens.map (·.text) = found := by
  obtain ⟨s, hadvance, houtside, htexts⟩ := h { source := [] } rfl
  refine ⟨s.flush.found.reverse, ?_, ?_⟩
  · unfold tokenize Scanner.scan Scanner.ofString
    dsimp only
    rw [hadvance]
    dsimp only
    split
    · next hmode => simp [Scanner.Outside, hmode] at houtside
    · rfl
  · rw [List.map_reverse]
    change s.texts.reverse = found
    rw [htexts, Scanner.texts_of_idle rfl]
    simp

end ExprShell
