/-
Texts line by line. After a text that has tokens, more lines have the tokens they have on their
own, only further down, and the fault they have on their own as well (`tokenize_lines`). A fault
other than an open string stays whatever follows.

A line break leaves the scanner between tokens, as it is at the start of a text. From there on it
does what it does from the start, on other lines and after other tokens: this is so for each
character (`Scanner.step_below`), hence all along a text (`Scanner.advance_below`).
-/
import ExprShell.Proofs.Token.Content

namespace ExprShell

/-- The token as many lines further down. -/
def Token.moved (lines : Nat) (t : Token) : Token :=
  { t with line := t.line + lines }

/-- The fault of a text as many lines further down. -/
def Fault.moved (lines : Nat) : Fault → Fault
  | .lexical line cause => .lexical (line + lines) cause
  | fault => fault

namespace Scanner

/-! ## Scanning further down -/

def Mode.moved (lines : Nat) : Mode → Mode
  | .word pending start => .word pending (start + lines)
  | .digits pending start => .digits pending (start + lines)
  | .quote pending start => .quote pending (start + lines)
  | .idle => .idle
  | .comment => .comment

/-- The scanner as it is if it started as many lines further down, where another one stopped: the
tokens of that one come before its own. -/
def below (s before : Scanner) (lines : Nat) : Scanner where
  source := before.source
  line := s.line + lines
  mode := s.mode.moved lines
  found := s.found.map (·.moved lines) ++ before.found

/-- The outcome of a step further down. -/
def outcomeBelow (before : Scanner) (lines : Nat) : Except Fault Scanner → Except Fault Scanner
  | .ok s => .ok (s.below before lines)
  | .error fault => .error (fault.moved lines)

variable (s before : Scanner) (lines : Nat) (c : Char)

theorem below_setMode (mode : Mode) :
    { s.below before lines with mode := mode.moved lines } =
      { s with mode }.below before lines := rfl

theorem moved_eq_idle (mode : Mode) : mode.moved lines = .idle ↔ mode = .idle := by
  cases mode with
  | _ => simp [Mode.moved]

theorem flush_below : (s.below before lines).flush = s.flush.below before lines := by
  unfold flush
  cases hmode : s.mode with
  | _ => simp [below, hmode, Mode.moved, Token.moved]

theorem push_below (text : List Char) :
    (s.below before lines).push text = (s.push text).below before lines := rfl

theorem nextLine_below : (s.below before lines).nextLine = s.nextLine.below before lines := by
  simp [nextLine, below, Nat.add_right_comm]

theorem quoteStep_below (pending : List Char) (start : Nat) :
    (s.below before lines).quoteStep pending (start + lines) c =
      (s.quoteStep pending start c).below before lines := by
  have hmode := s.below_setMode before lines (.quote (c :: pending) start)
  unfold quoteStep
  dsimp only
  split
  · exact (congrArg nextLine hmode).trans (nextLine_below ..)
  · split
    · exact (congrArg flush hmode).trans (flush_below ..)
    · exact hmode

theorem commentStep_below :
    (s.below before lines).commentStep c = (s.commentStep c).below before lines := by
  unfold commentStep
  split
  · exact nextLine_below { s with mode := .idle } before lines
  · rfl

theorem delimiterStep_of_ne {s : Scanner} (h : ∀ start, s.mode ≠ .word ['\''] start) :
    s.delimiterStep c = s.flush.push [c] := by
  unfold delimiterStep
  split
  · next start hmode => exact absurd hmode (h start)
  · rfl

theorem delimiterStep_below :
    (s.below before lines).delimiterStep c = (s.delimiterStep c).below before lines := by
  -- A delimiter joins a lone quote sign, and one is pending here exactly if it is further down.
  by_cases hquote : ∃ start, s.mode = .word ['\''] start
  · obtain ⟨start, hmode⟩ := hquote
    have hbelow : (s.below before lines).mode = .word ['\''] (start + lines) := by
      simp [below, hmode, Mode.moved]
    unfold delimiterStep
    simp only [hmode, hbelow]
    split
    · exact flush_below { s with mode := .word [c, '\''] start } before lines
    · rw [flush_below, push_below]
  · have hs : ∀ start, s.mode ≠ .word ['\''] start := fun start hmode => hquote ⟨start, hmode⟩
    have hbelow : ∀ start, (s.below before lines).mode ≠ .word ['\''] start := by
      intro start hmode
      cases hword : s.mode with
      | word pending start' =>
        simp only [below, hword, Mode.moved, Mode.word.injEq] at hmode
        exact hs start' (hmode.1 ▸ hword)
      | _ => simp [below, hword, Mode.moved] at hmode
    rw [delimiterStep_of_ne c hs, delimiterStep_of_ne c hbelow, flush_below, push_below]

theorem digitStep_below :
    (s.below before lines).digitStep c = (s.digitStep c).below before lines := by
  unfold digitStep
  cases hmode : s.mode with
  | _ => simp [below, hmode, Mode.moved]

theorem letterStep_below :
    (s.below before lines).letterStep c = outcomeBelow before lines (s.letterStep c) := by
  unfold letterStep
  cases hmode : s.mode with
  | _ => simp [below, hmode, Mode.moved, outcomeBelow, Fault.moved]

theorem openQuote_below :
    (s.below before lines).openQuote = outcomeBelow before lines s.openQuote := by
  unfold openQuote
  cases hmode : s.mode with
  | _ => simp [below, hmode, Mode.moved, outcomeBelow, Fault.moved]

theorem plainStep_below :
    (s.below before lines).plainStep c = outcomeBelow before lines (s.plainStep c) := by
  have hidle : ((s.below before lines).mode == .idle) = (s.mode == .idle) := by
    rw [Bool.eq_iff_iff, beq_iff_eq, beq_iff_eq]
    exact moved_eq_idle lines s.mode
  unfold plainStep
  rw [hidle]
  split
  · exact congrArg Except.ok (s.flush_below before lines)
  split
  · rw [flush_below, nextLine_below]
    rfl
  split
  · exact s.openQuote_below before lines
  split
  · rfl
  split
  · exact congrArg Except.ok (s.delimiterStep_below before lines c)
  split
  · exact congrArg Except.ok (s.digitStep_below before lines c)
  · exact s.letterStep_below before lines c

/-- One character: further down it does what it does at the start. -/
theorem step_below : (s.below before lines).step c = outcomeBelow before lines (s.step c) := by
  have hbelow : (s.below before lines).mode = s.mode.moved lines := rfl
  unfold step
  rw [hbelow]
  cases s.mode with
  | quote pending start =>
    exact congrArg Except.ok (s.quoteStep_below before lines c pending start)
  | comment => exact congrArg Except.ok (s.commentStep_below before lines c)
  | _ => exact s.plainStep_below before lines c

/-- A whole text: further down the scanner finds what it finds at the start. -/
theorem advance_below (text : List Char) :
    (s.below before lines).advance text =
      ((s.advance text).1.map (Fault.moved lines), (s.advance text).2.below before lines) := by
  induction text generalizing s with
  | nil => rfl
  | cons c rest ih =>
    rw [advance, advance, step_below]
    cases s.step c with
    | ok next => exact ih next
    | error fault => rfl

/-! ## Line breaks -/

/-- The scanner counts the line breaks that it reads. -/
theorem line_of_advance {text : List Char} {s : Scanner}
    (h : fresh.advance text = (none, s)) : s.line = 1 + lineBreaks text := by
  obtain ⟨layout, pending, hreached, hend⟩ := reached_fresh.advance text
  rw [h] at hreached hend
  obtain ⟨-, htext⟩ | ⟨fault, c, rest, hfault, -⟩ := hend
  · rw [hreached.has.line, htext]
    rfl
  · cases hfault

/-- The end of a line ends what the end of the text would have ended. -/
theorem step_newline {s : Scanner} (h : s.Outside ∨ s.mode = .comment) :
    s.step '\n' = .ok s.flush.nextLine := by
  obtain hout | hcomment := h
  · rw [step_of_outside hout]
    rfl
  · simp [step, hcomment, commentStep, flush]

/-- At the start of a line the scanner is as at the start of a text, but further down. -/
theorem nextLine_eq_below {s : Scanner} {lines : Nat} (h : s.line = lines) :
    s.flush.nextLine = fresh.below s.flush lines := by
  have hline : s.flush.line = lines := (Has.line_flush s).trans h
  simp [nextLine, below, fresh, hline, Mode.moved, Nat.add_comm]

theorem advance_append_of_fault {s s' : Scanner} {xs : List Char} {fault : Fault}
    (h : s.advance xs = (some fault, s')) (ys : List Char) :
    s.advance (xs ++ ys) = (some fault, s') := by
  induction xs generalizing s with
  | nil => cases h
  | cons c xs ih =>
    cases hstep : s.step c with
    | error fault' =>
      simp only [advance, hstep] at h
      simpa only [List.cons_append, advance, hstep] using h
    | ok next =>
      rw [advance_cons_of_ok hstep] at h
      rw [List.cons_append, advance_cons_of_ok hstep]
      exact ih h

end Scanner

/-! ## Texts with more lines -/

/-- The outcome for more lines, further down and after the tokens of the lines before. -/
def laterLines (tokens : List Token) (lines : Nat) :
    Except Fault (List Token) → Except Fault (List Token)
  | .ok later => .ok (tokens ++ later.map (·.moved lines))
  | .error fault => .error (fault.moved lines)

/-- The outcome for a text with more lines is that for the lines, further down. -/
theorem tokenize_append_newline {text : String} {tokens : List Token}
    (h : tokenize text = .ok tokens) (more : String) :
    tokenize (text ++ "\n" ++ more) =
      laterLines tokens (1 + lineBreaks text.toList) (tokenize more) := by
  obtain ⟨s, hs, rfl, hmode⟩ := exists_of_tokenize h
  have hrun : Scanner.fresh.advance (text ++ "\n" ++ more).toList =
      (Scanner.fresh.below s.flush (1 + lineBreaks text.toList)).advance more.toList := by
    have hchars : (text ++ "\n" ++ more).toList = text.toList ++ '\n' :: more.toList := by simp
    rw [hchars, Scanner.advance_append (s := Scanner.fresh) hs,
      Scanner.advance_cons_of_ok (Scanner.step_newline hmode),
      Scanner.nextLine_eq_below (Scanner.line_of_advance hs)]
  rw [Scanner.advance_below] at hrun
  -- Both runs end alike: with a fault, inside a string, or with all tokens found.
  cases hmore : Scanner.fresh.advance more.toList with
  | mk outcome t =>
    rw [hmore] at hrun
    cases outcome with
    | some fault =>
      rw [Scanner.tokenize_of_fault hrun, Scanner.tokenize_of_fault hmore]
      rfl
    | none =>
      cases ht : t.mode with
      | quote pending start =>
        have hquote : (t.below s.flush (1 + lineBreaks text.toList)).mode =
            .quote pending (start + (1 + lineBreaks text.toList)) := by
          simp [Scanner.below, ht, Scanner.Mode.moved]
        rw [Scanner.tokenize_of_quote hmore ht, Scanner.tokenize_of_quote hrun hquote]
        rfl
      | _ =>
        have hclosed : ∀ pending start,
            (t.below s.flush (1 + lineBreaks text.toList)).mode ≠ .quote pending start := by
          simp [Scanner.below, ht, Scanner.Mode.moved]
        rw [Scanner.tokenize_of_mode hmore (by simp [ht]), Scanner.tokenize_of_mode hrun hclosed,
          Scanner.flush_below]
        simp [laterLines, Scanner.below]

/-- A text without tokens ends inside a string, or has a character that cannot be read. -/
theorem exists_of_tokenize_error {text : String} {fault : Fault}
    (h : tokenize text = .error fault) :
    ∃ line cause, fault = .lexical line cause ∧
      (cause = .unterminatedString ∨
        ∃ s, Scanner.fresh.advance text.toList = (some fault, s)) := by
  obtain ⟨layout, pending, -, hend⟩ := Scanner.reached_fresh.advance text.toList
  cases hrun : Scanner.fresh.advance text.toList with
  | mk outcome s =>
    rw [hrun] at hend
    obtain ⟨rfl, -⟩ | ⟨fault', c, rest, rfl, ⟨cause, rfl, -⟩, -⟩ := hend
    · cases hmode : s.mode with
      | quote reversed start =>
        cases (Scanner.tokenize_of_quote hrun hmode).symm.trans h
        exact ⟨start, _, rfl, .inl rfl⟩
      | _ => cases (Scanner.tokenize_of_mode hrun (by simp [hmode])).symm.trans h
    · cases (Scanner.tokenize_of_fault hrun).symm.trans h
      exact ⟨_, cause, rfl, .inr ⟨s, rfl⟩⟩

/-- A text without tokens has none whatever follows, unless it ends inside a string. -/
theorem tokenize_append_of_error {text : String} {fault : Fault}
    (h : tokenize text = .error fault) (more : String) :
    (∃ line, fault = .lexical line .unterminatedString) ∨
      tokenize (text ++ more) = .error fault := by
  obtain ⟨line, cause, rfl, rfl | ⟨s, hrun⟩⟩ := exists_of_tokenize_error h
  · exact .inl ⟨line, rfl⟩
  · refine .inr (Scanner.tokenize_of_fault (s := s) ?_)
    rw [String.toList_append]
    exact Scanner.advance_append_of_fault hrun _

/-- **Texts are scanned line by line.** More lines after a text with tokens have the tokens, or
the fault, that they have on their own, as many lines further down as there are lines before
them. A text without tokens that does not end inside a string has its fault whatever follows. -/
theorem tokenize_lines (text more : String) :
    (∀ tokens, tokenize text = .ok tokens →
      (∀ later, tokenize more = .ok later → tokenize (text ++ "\n" ++ more) =
        .ok (tokens ++ later.map (·.moved (1 + lineBreaks text.toList)))) ∧
      (∀ fault, tokenize more = .error fault → ∃ line cause, fault = .lexical line cause ∧
        tokenize (text ++ "\n" ++ more) =
          .error (.lexical (line + (1 + lineBreaks text.toList)) cause))) ∧
    (∀ fault, tokenize text = .error fault →
      (∀ line, fault ≠ .lexical line .unterminatedString) →
      tokenize (text ++ more) = .error fault) := by
  refine ⟨fun tokens h => ⟨fun later hmore => ?_, fun fault hmore => ?_⟩, fun fault h hopen => ?_⟩
  · rw [tokenize_append_newline h, hmore]
    rfl
  · obtain ⟨line, cause, rfl, -⟩ := exists_of_tokenize_error hmore
    refine ⟨line, cause, rfl, ?_⟩
    rw [tokenize_append_newline h, hmore]
    rfl
  · obtain ⟨line, heq⟩ | herror := tokenize_append_of_error h more
    · exact absurd heq (hopen line)
    · exact herror

/-- After a comment that nothing ends but the line break: a string over two lines, a fault on the
second line, and a fault that more text cannot mend. -/
theorem tokenize_lines_comment :
    (tokenize "f 1 # (" = .ok [⟨"f", 1⟩, ⟨"1", 1⟩] ∧
      tokenize "'[ \"a\nb\" x" = .ok [⟨"'[", 1⟩, ⟨"\"a\nb\"", 1⟩, ⟨"x", 2⟩] ∧
      tokenize ("f 1 # (" ++ "\n" ++ "'[ \"a\nb\" x") =
        .ok [⟨"f", 1⟩, ⟨"1", 1⟩, ⟨"'[", 2⟩, ⟨"\"a\nb\"", 2⟩, ⟨"x", 3⟩]) ∧
    (tokenize "(\n12a" = .error (.lexical 2 (.strayCharacter 'a')) ∧
      (∃ line cause, Fault.lexical 2 (.strayCharacter 'a') = .lexical line cause ∧
        tokenize ("f 1 # (" ++ "\n" ++ "(\n12a") = .error (.lexical (line + 1) cause)) ∧
      tokenize ("(\n12a" ++ "\n\"") = .error (.lexical 2 (.strayCharacter 'a'))) := by
  have hcomment : tokenize "f 1 # (" = .ok [⟨"f", 1⟩, ⟨"1", 1⟩] := rfl
  have hstring : tokenize "'[ \"a\nb\" x" = .ok [⟨"'[", 1⟩, ⟨"\"a\nb\"", 1⟩, ⟨"x", 2⟩] := rfl
  have hstray : tokenize "(\n12a" = .error (.lexical 2 (.strayCharacter 'a')) := rfl
  refine ⟨⟨hcomment, hstring, ?_⟩, hstray, ?_, ?_⟩
  · exact ((tokenize_lines _ _).1 _ hcomment).1 _ hstring
  · exact ((tokenize_lines _ _).1 _ hcomment).2 _ hstray
  · exact (tokenize_lines _ _).2 _ hstray fun line h => by cases h

end ExprShell
