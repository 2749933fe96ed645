/-
When the printed form of a literal reads back that was read from a text
(`literal_reads_back_iff`): exactly if all names in it are plain.

Names in quoted data may be escaped, as in `'[@5]`, and the name is then what follows the marker.
It is printed without one. If all names are plain, the literal is printable data. If one is not,
its printed form is another literal, or an escape again (`plain_of_dataElement`), unless it cannot
be scanned or starts a comment. A comment drops what follows on its line, and some of that is a mark
(`Scanner.Loses`): too few marks are left for a node equal to what was printed.
-/
import ExprShell.Proofs.Reader.Literals

namespace ExprShell

/-! ## Loss of marks -/

namespace Scanner

variable {s s' : Scanner} {c : Char} {xs ys more : List Char}

/-- There is a mark before the line ends. -/
def Marked (text : List Char) : Prop :=
  ∃ before c after, text = before ++ c :: after ∧ isMark c = true ∧ '\n' ∉ before

/-- Between tokens, what is read of a text and what follows it has fewer marks, if it can be read
at all. -/
def Loses (xs more : List Char) : Prop :=
  ∀ s s' : Scanner, s.mode = .idle → s.advance (xs ++ more) = (none, s') →
    ∃ kept, s'.content = s.content ++ kept ∧ marks kept < marks (xs ++ more)

namespace Marked

theorem mark (hc : isMark c = true) (xs : List Char) : Marked (c :: xs) :=
  ⟨[], c, xs, rfl, hc, List.not_mem_nil⟩

theorem cons (hc : c ≠ '\n') (hy : Marked ys) : Marked (c :: ys) := by
  obtain ⟨before, d, after, rfl, hd, hbefore⟩ := hy
  refine ⟨c :: before, d, after, rfl, hd, ?_⟩
  simp [Ne.symm hc, hbefore]

theorem word (hx : ∀ c ∈ xs, isWordChar c = true) (hy : Marked ys) : Marked (xs ++ ys) := by
  induction xs with
  | nil => exact hy
  | cons c xs ih =>
    obtain ⟨hc, hxs⟩ := List.forall_mem_cons.1 hx
    refine cons ?_ (ih hxs)
    rintro rfl
    exact absurd hc (by decide)

end Marked

mutual

/-- Line breaks are printed in strings only. -/
theorem marked_write (inside : Bool) (n : Node) (h : n.isDatum = true) {more : List Char}
    (hmore : Marked more) : Marked ((n.write inside).toList ++ more) := by
  match n with
  | .number _ n => exact .word (IsWord.text n).2 hmore
  | .boolean _ b => exact .word (IsWord.boolean b).2 hmore
  | .string _ text => simpa [Node.write] using Marked.mark (c := '"') rfl _
  | .identifier _ name =>
    simp only [Node.isDatum, Bool.and_eq_true, List.all_eq_true] at h
    exact .word h.2 hmore
  | .list s items =>
    rw [Node.write]
    split
    · have hitems := marked_writeItems true items h (Marked.mark (c := ']') rfl more)
      have hbracket := hitems.cons (c := '[') (by decide)
      cases inside with
      | true => simpa using hbracket
      | false => simpa using hbracket.cons (c := '\'') (by decide)
    · have hitems := marked_writeItems false items h (Marked.mark (c := ')') rfl more)
      simpa using hitems.cons (c := '(') (by decide)
  | .function .. | .operator .. | .command .. | .commandResult .. | .error .. | .rawAst ..
  | .defunc .. => cases h

theorem marked_writeItems (inside : Bool) (ns : List Node) (h : Node.areData ns = true)
    {more : List Char} (hmore : Marked more) :
    Marked ((Node.writeItems inside ns).toList ++ more) := by
  match ns with
  | [] => exact hmore
  | [n] =>
    simp only [Node.areData, Bool.and_true] at h
    exact marked_write inside n h hmore
  | n :: m :: rest =>
    rw [Node.areData, Bool.and_eq_true] at h
    have hrest := (marked_writeItems inside (m :: rest) h.2 hmore).cons (c := ' ') (by decide)
    rw [Node.writeItems]
    simpa using marked_write inside n h.1 hrest

end

theorem marks_le_of_sublist (h : xs.Sublist ys) : marks xs ≤ marks ys :=
  h.countP_le

namespace Loses

/-- Text before which leaves the scanner between tokens does not make up for the loss. -/
theorem after (hx : ∀ s : Scanner, s.mode = .idle →
      ∃ s', s.advance xs = (none, s') ∧ s'.mode = .idle)
    (hy : Loses ys more) : Loses (xs ++ ys) more := by
  intro s s' hmode hadvance
  obtain ⟨s₁, hfirst, hmode₁⟩ := hx s hmode
  rw [List.append_assoc, advance_append hfirst] at hadvance
  obtain ⟨first, hsublist, hcontent⟩ := content_advance hfirst
  obtain ⟨kept, hkept, hfewer⟩ := hy s₁ s' hmode₁ hadvance
  refine ⟨first ++ kept, by rw [hkept, hcontent, List.append_assoc], ?_⟩
  have hle := marks_le_of_sublist hsublist
  simp only [marks_append] at hfewer ⊢
  omega

theorem space {found : List String} (hx : Reads xs found) (hy : Loses ys more) :
    Loses (xs ++ ' ' :: ys) more := by
  have hspace : Loses ((xs ++ [' ']) ++ ys) more := by
    refine after (fun s hmode => ?_) hy
    obtain ⟨s₁, hadvance, houtside, -⟩ := hx s hmode
    refine ⟨s₁.flush, ?_, s₁.mode_flush⟩
    rw [advance_append hadvance, advance_cons_of_ok (step_space houtside)]
    rfl
  simpa using hspace

theorem opened (hc : isOpening c = true) (hy : Loses ys more) : Loses (c :: ys) more := by
  have hopened : Loses ([c] ++ ys) more := by
    refine after (fun s hmode => ?_) hy
    exact ⟨s.flush.push [c], advance_cons_of_ok (step_opening hmode hc) [], s.mode_flush⟩
  exact hopened

/-- What follows can be counted to the text. -/
theorem append (h : Loses xs (ys ++ more)) : Loses (xs ++ ys) more := by
  intro s s' hmode hadvance
  rw [List.append_assoc] at hadvance ⊢
  exact h s s' hmode hadvance

/-- A comment drops the mark that stands on its line. -/
theorem comment (h : Marked (xs ++ more)) : Loses ('#' :: xs) more := by
  intro s s' hmode hadvance
  obtain ⟨before, c, after, htext, hc, hbefore⟩ := h
  have hstart : s.step '#' = .ok { s with mode := .comment } := by
    rw [step_of_outside (outside_of_idle hmode)]
    simp [plainStep, hmode]
  have hline : '\n' ∉ before ++ [c] := by
    have hne : '\n' ≠ c := by
      rintro rfl
      exact absurd hc (by decide)
    simp [hbefore, hne]
  have hdropped := advance_comment (s := { s with mode := .comment }) rfl hline
  have hall : '#' :: xs ++ more = '#' :: ((before ++ [c]) ++ after) := by simp [htext]
  rw [hall, advance_cons_of_ok hstart, advance_append hdropped] at hadvance
  obtain ⟨kept, hsublist, hcontent⟩ := content_advance hadvance
  refine ⟨kept, ?_, ?_⟩
  · rw [hcontent]
    simp [content, hmode, Mode.pending]
  · have hle := marks_le_of_sublist hsublist
    rw [hall]
    simp only [marks_cons, marks_append, hc, if_true]
    omega

end Loses

/-- A number that goes on as a word cannot be read. -/
theorem advance_digits {reversed : List Char} {start : Nat}
    (hmode : s.mode = .digits reversed start) (hx : ∀ c ∈ xs, isWordChar c = true)
    (hdigits : xs.all Char.isDigit = false) (more : List Char) :
    s.advance (xs ++ more) ≠ (none, s') := by
  induction xs generalizing s reversed with
  | nil => cases hdigits
  | cons c xs ih =>
    obtain ⟨hc, hxs⟩ := List.forall_mem_cons.1 hx
    rw [List.cons_append]
    cases hdigit : c.isDigit with
    | true =>
      rw [advance_cons_of_ok (step_digit hmode hdigit)]
      refine ih rfl hxs ?_
      simpa [hdigit] using hdigits
    | false =>
      have hstep : s.step c = .error (.lexical start (.strayCharacter c)) := by
        rw [step_wordChar (by simp [Outside, hmode]) hc (by simp [hmode])]
        simp [hdigit, letterStep, hmode]
      simp [advance, hstep]

/-- A word that is not read as one token. -/
theorem loses_name {name : String} (hword : IsWord name) (h : Token.isOneToken name = false)
    (hmore : Marked more) : Loses name.toList more := by
  obtain ⟨hne, hchars⟩ := hword
  cases hname : name.toList with
  | nil => exact absurd hname hne
  | cons c rest =>
    rw [hname] at hchars
    obtain ⟨hc, hrest⟩ := List.forall_mem_cons.1 hchars
    by_cases hcomment : c = '#'
    · subst hcomment
      exact .comment (.word hrest hmore)
    · have hdigits : c.isDigit = true ∧ rest.all Char.isDigit = false := by
        unfold Token.isOneToken at h
        rw [hname] at h
        have hall : (c :: rest).all isWordChar = true := List.all_eq_true.2 hchars
        simpa [hall, hcomment] using h
      intro s s' hmode hadvance
      rw [List.cons_append, advance_cons_of_ok (step_digit_of_idle hmode hdigits.1)] at hadvance
      exact absurd hadvance (advance_digits rfl hrest hdigits.2 more)

theorem Loses.quoted (hy : Loses ys more) : Loses ('\'' :: '[' :: ys) more := by
  have hquoted : Loses (['\'', '['] ++ ys) more :=
    after (fun s hmode => ⟨_, advance_quoted hmode, rfl⟩) hy
  exact hquoted

mutual

/-- Data with a name that is not one token. The end of a list is a mark, so that what follows the
list does not matter. -/
theorem loses_write (inside : Bool) (n : Node) (h : n.isDatum = true)
    (htokens : n.isTokenwise = false) {more : List Char} (hmore : n.nesting = 0 → Marked more) :
    Loses (n.write inside).toList more := by
  match n with
  | .number .. | .boolean .. => cases htokens
  | .string .. => exact absurd (htokens.symm.trans h) Bool.false_ne_true
  | .identifier _ name =>
    have hword : IsWord name := by simpa [Node.isDatum, IsWord] using h
    exact loses_name hword htokens (hmore rfl)
  | .list s items =>
    rw [Node.write]
    split
    · have hitems := (loses_writeItems true items h htokens (Marked.mark (c := ']') rfl more))
      have hclosed : Loses ((Node.writeItems true items).toList ++ [']']) more := hitems.append
      cases inside with
      | true => simpa using hclosed.opened (c := '[') rfl
      | false => simpa using hclosed.quoted
    · have hitems := (loses_writeItems false items h htokens (Marked.mark (c := ')') rfl more))
      have hclosed : Loses ((Node.writeItems false items).toList ++ [')']) more := hitems.append
      simpa using hclosed.opened (c := '(') rfl
  | .function .. | .operator .. | .command .. | .commandResult .. | .error .. | .rawAst ..
  | .defunc .. => cases h

theorem loses_writeItems (inside : Bool) (ns : List Node) (h : Node.areData ns = true)
    (htokens : Node.areTokenwise ns = false) {more : List Char} (hmore : Marked more) :
    Loses (Node.writeItems inside ns).toList more := by
  match ns with
  | [] => cases htokens
  | [n] =>
    simp only [Node.areData, Bool.and_true] at h
    simp only [Node.areTokenwise, Bool.and_true] at htokens
    exact loses_write inside n h htokens fun _ => hmore
  | n :: m :: rest =>
    rw [Node.areData, Bool.and_eq_true] at h
    rw [Node.areTokenwise] at htokens
    rw [Node.writeItems]
    cases hn : n.isTokenwise with
    | true =>
      rw [hn, Bool.true_and] at htokens
      have hrest := loses_writeItems inside (m :: rest) h.2 htokens hmore
      simpa using hrest.space (reads_tokenwise inside n hn)
    | false =>
      have hrest := (marked_writeItems inside (m :: rest) h.2 hmore).cons (c := ' ') (by decide)
      have hfirst : Loses ((n.write inside).toList ++
          ' ' :: (Node.writeItems inside (m :: rest)).toList) more :=
        (loses_write inside n h.1 hn fun _ => hrest).append
      simpa using hfirst

end

end Scanner

theorem marks_lt_of_loses {source : String} {tokens : List Token}
    (hloses : Scanner.Loses source.toList []) (h : tokenize source = .ok tokens) :
    Scanner.marks (Token.chars tokens) < Scanner.marks source.toList := by
  obtain ⟨s, hadvance, rfl, -⟩ := exists_of_tokenize h
  rw [← List.append_nil source.toList] at hadvance ⊢
  obtain ⟨kept, hcontent, hfewer⟩ := hloses { source := [] } s rfl hadvance
  have hchars : Token.chars s.flush.found.reverse = kept :=
    calc Token.chars s.flush.found.reverse
        = s.flush.content := by simp [Scanner.content, Scanner.Mode.pending]
      _ = s.content := s.content_flush
      _ = kept := hcontent
  rw [hchars]
  exact hfewer

theorem tokenize_quoted {source : String} {xs : List Char} {tokens : List Token}
    (hsource : source.toList = '\'' :: '[' :: xs) (h : tokenize source = .ok tokens) :
    ∃ t rest, tokens = t :: rest ∧ t.text = Opener.quotedBracket.text := by
  obtain ⟨spans, haccounted⟩ := accounted_of_tokenize h
  rw [hsource] at haccounted
  obtain ⟨t, rest, stop, rfl, hstands⟩ := haccounted.exists_first rfl (by decide) (by decide)
  refine ⟨t, rest, rfl, ?_⟩
  have hopener : IsLexeme ['\'', '['] := .quotedOpener (by simp)
  have htext : t.text.toList = ('\'' :: '[' :: xs).take stop := hstands.text
  have hlexeme : IsLexeme (('\'' :: '[' :: xs).take stop) := hstands.lexeme
  obtain rfl | rfl | ⟨n, rfl⟩ : stop = 0 ∨ stop = 1 ∨ ∃ n, stop = n + 2 := by
    obtain _ | _ | n := stop
    · exact .inl rfl
    · exact .inr (.inl rfl)
    · exact .inr (.inr ⟨n, rfl⟩)
  · exact absurd hstands.nonempty (Nat.lt_irrefl 0)
  · -- A quote sign alone is not the longest lexeme before a bracket.
    exact absurd hopener (hstands.longest 2 (by decide) (by simp))
  · have hcut : IsLexeme (['\''] ++ '[' :: xs.take n) := hlexeme
    obtain ⟨-, -, hnil⟩ | ⟨others, hothers⟩ := hcut.cut_reserved (by decide) (by simp)
    · rw [← String.toList_inj, htext, List.take_succ_cons, List.take_succ_cons, hnil]
      rfl
    · simp at hothers

/-! ## Printed names -/

namespace Reader

variable {c : Context} {depth : Nat} {t : Token} {m n : Node} {ts rest after : List Token}

/-- A word that is read as a name and scanned as one token is a plain name. -/
theorem isPlainName_of_isName (h : Token.isOneToken t.text = true) (hname : t.isName = true) :
    Token.isPlainName t.text = true := by
  simp only [Token.isName, Bool.and_eq_true, Bool.not_eq_true', bne_iff_ne] at hname
  obtain ⟨⟨⟨⟨-, hnumber⟩, hescape⟩, htrue⟩, hfalse⟩ := hname
  unfold Token.isOneToken at h
  split at h
  · cases h
  · next c rest htext =>
    simp only [Bool.and_eq_true] at h
    obtain ⟨⟨hword, hcomment⟩, hdigits⟩ := h
    have hdigit : c.isDigit = false := by
      cases hc : c.isDigit with
      | false => rfl
      | true =>
        have hminus : c ≠ '-' := by
          rintro rfl
          exact absurd hc (by decide)
        have hrest : rest.all Char.isDigit = true := by simpa [hc] using hdigits
        have hliteral : t.isNumber = true := by
          simp [Token.isNumber, Number.isLiteral, htext, hminus, hc, hrest]
        rw [hnumber] at hliteral
        cases hliteral
    have hplain : (c == '@' && !rest.isEmpty) = false := by
      cases rest with
      | nil => simp
      | cons d rest =>
        have hc : c ≠ '@' := by
          rintro rfl
          simp [Token.isEscape, htext] at hescape
        simp [hc]
    have hliteral : Number.isLiteral t.text = false := hnumber
    unfold Token.isPlainName
    rw [htext]
    simp only [hword, hdigit, hcomment, hplain, hliteral, bne_iff_ne.2 htrue, bne_iff_ne.2 hfalse]
    rfl

/-- Printed names that are read as themselves are plain. -/
theorem isPlainName_of_atom (h : Token.isOneToken t.text = true) (hatom : atom depth t = .ok m)
    {s : Stamp} (hsame : m.same (.identifier s t.text) = true) :
    Token.isPlainName t.text = true := by
  obtain ⟨x, rfl⟩ | ⟨b, rfl⟩ | ⟨d, rest, htext, rfl⟩ | ⟨hname, -⟩ :=
    atom_word_cases (IsWord.oneToken h) hatom
  · cases hsame
  · cases hsame
  · have heq : String.ofList (d :: rest) = t.text := by simpa [Node.same] using hsame
    have hlength := congrArg List.length htext
    rw [← heq] at hlength
    simp at hlength
  · exact isPlainName_of_isName h hname

mutual

/-- The tokens of printed data, if they are read at all, are read to the end of it; and if that
gives an equal node, all names are plain. -/
theorem plain_of_dataElement (inside : Bool) (n : Node) (hn : n.isTokenwise = true) {depth : Nat}
    {ts rest after : List Token} (hts : ts.map (·.text) = n.tokenTexts inside) {m : Node}
    (h : Runs c (Goal.dataElement.plan depth) (ts ++ rest) (.ok ([m], after))) :
    after = rest ∧ (m.same n = true → n.hasPlainNames = true) := by
  match n with
  | .number .. | .boolean .. | .string .. =>
    obtain ⟨t, rfl, ht⟩ := List.map_eq_singleton_iff.1 hts
    exact ⟨(dataElement_word_inv (shape_of_leaf hn rfl ht) h).1, fun _ => rfl⟩
  | .identifier s name =>
    obtain ⟨t, rfl, ht⟩ := List.map_eq_singleton_iff.1 hts
    obtain ⟨hafter, n, hatom, rfl⟩ := dataElement_word_inv (shape_of_leaf hn rfl ht) h
    change t.text = name at ht
    subst ht
    refine ⟨hafter, fun hsame => ?_⟩
    rw [Node.quote, Node.same_withStamp] at hsame
    exact isPlainName_of_atom hn hatom hsame
  | .list s items =>
    obtain ⟨t, us, closing, ht, hus, hclosing, htokens⟩ := delimited_of_map_text hts
    rw [htokens] at h
    obtain ⟨-, ms, hms, rfl⟩ :=
      dataElement_list_inv (printedOpener_ne_brace inside s) (Token.shape_of_opener ht) h
    exact plain_of_items s.quoted items hn hus hclosing hms
  | .function .. | .operator .. | .command .. | .commandResult .. | .error .. | .rawAst ..
  | .defunc .. => cases hn

theorem plain_of_items (inside : Bool) (ns : List Node) (hns : Node.areTokenwise ns = true)
    {depth : Nat} {ts rest after : List Token}
    (hts : ts.map (·.text) = Node.tokenTextsAll inside ns) {o : Opener} {opening closing : Token}
    (hclosing : closing.text = o.closer.text) {first : Bool} {ms : List Node}
    (h : Runs c ((Goal.items o opening true first).plan depth) (ts ++ closing :: rest)
      (.ok (ms, after))) :
    after = rest ∧ (Node.sameAll ms ns = true → Node.havePlainNames ns = true) := by
  match ns with
  | [] =>
    cases List.map_eq_nil_iff.1 hts
    exact ⟨(items_closed_inv (Token.shape_of_closer hclosing) h).1, fun _ => rfl⟩
  | n :: ns =>
    rw [Node.areTokenwise, Bool.and_eq_true] at hns
    obtain ⟨us, vs, rfl, hus, hvs⟩ := List.map_eq_append_iff.1 hts
    obtain ⟨t, us, rfl, hshape⟩ := tokenwise_eq_cons hns.1 hus
    rw [List.append_assoc] at h
    have hcloser : ∀ k, t.shape ≠ .closer k := by
      intro k
      obtain hshape | ⟨o', hshape⟩ := hshape
      all_goals simp [hshape]
    obtain ⟨m, others, middle, hm, hothers, rfl⟩ := items_cons_inv hcloser h
    obtain ⟨rfl, hplain⟩ := plain_of_dataElement inside n hns.1 hus hm
    obtain ⟨hafter, hplains⟩ := plain_of_items inside ns hns.2 hvs hclosing hothers
    refine ⟨hafter, fun hsame => ?_⟩
    rw [Node.sameAll, Bool.and_eq_true] at hsame
    rw [Node.havePlainNames, hplain hsame.1, hplains hsame.2]
    rfl

end

/-- Quoted data that stands alone is read as data. -/
theorem dataElement_of_program (ht : t.text = Opener.quotedBracket.text)
    (h : Runs c (Goal.program.plan depth) (t :: ts) (.ok ([m], rest))) :
    ∃ after, Runs c (Goal.dataElement.plan depth) (t :: ts) (.ok ([m], after)) := by
  have hshape := Token.shape_of_opener ht
  obtain ⟨after, hstatement⟩ := statement_of_program_cons (by simp [hshape]) h
  have h := hstatement.of_peek
  rw [isName_of_opener hshape] at h
  have h := h.of_just.of_peek
  rw [hshape] at h
  refine ⟨after, .peek ?_⟩
  rw [hshape]
  exact .shift h.of_shift

end Reader

/-! ## Literals -/

theorem hasPlainNames_of_parse_display {s : Stamp} {items : List Node} {m : Node} {maxDepth : Nat}
    (hdatum : (Node.list s items).isDatum = true) (hquoted : s.quoted = true)
    (h : parse (Node.list s items).display maxDepth = .ok [m])
    (hsame : m.same (.list s items) = true) : (Node.list s items).hasPlainNames = true := by
  obtain ⟨tokens, htokens, hprogram⟩ := Reader.parse_eq_ok_iff.1 h
  have hdisplay : (Node.list s items).display.toList =
      '\'' :: '[' :: ((Node.writeItems true items).toList ++ [']']) := by
    simp [Node.display, Node.write, hquoted]
  obtain ⟨t, rest, rfl, ht⟩ := tokenize_quoted hdisplay htokens
  obtain ⟨after, hdata⟩ := Reader.dataElement_of_program ht hprogram
  cases htokenwise : (Node.list s items).isTokenwise with
  | true =>
    obtain ⟨tokens, hread, htexts⟩ :=
      tokenize_of_reads (Scanner.reads_tokenwise false (.list s items) htokenwise)
    cases hread.symm.trans htokens
    rw [← List.append_nil (t :: rest)] at hdata
    exact (Reader.plain_of_dataElement false _ htokenwise htexts hdata).2 hsame
  | false =>
    have hloses : Scanner.Loses (Node.list s items).display.toList [] :=
      Scanner.loses_write false _ hdatum htokenwise (by simp [Node.nesting])
    have hfewer := marks_lt_of_loses hloses htokens
    rw [Node.display, Scanner.marks_write false _ hdatum, ← Node.marks_of_same hsame] at hfewer
    have hpost := hdata.post (Reader.readingData_kept _)
      ⟨Nat.zero_le _, isFormed_of_tokenize htokens, ?_⟩
    · obtain ⟨-, -, hmarks⟩ := hpost
      simp only [Node.marksAll, Reader.Goal.closers] at hmarks
      omega
    · intro t' rest' heq
      cases heq
      simp [Token.isCloser, Token.shape_of_opener ht]

/-- **A literal that was read from a text reads back from its printed form**, as one node equal to
it, exactly if all names in it are plain. -/
theorem literal_reads_back_iff {source : String} {maxDepth : Nat} {n : Node}
    (hparse : parse source maxDepth = .ok [n]) (hliteral : n.isLiteral = true) :
    (∃ m, parse n.display maxDepth = .ok [m] ∧ m.same n = true) ↔ n.hasPlainNames = true := by
  obtain ⟨hdatum, hnesting⟩ := isDatum_of_parse hparse hliteral
  constructor
  · rintro ⟨m, hm, hsame⟩
    match n with
    | .number .. | .boolean .. | .string .. => rfl
    | .list s items => exact hasPlainNames_of_parse_display hdatum hliteral hm hsame
  · intro hplain
    have hprintable := Node.isPrintable_of_isDatum n hdatum hplain
    obtain ⟨tokens, htokens, htexts⟩ :=
      tokenize_of_reads (Scanner.reads_write false n hprintable)
    obtain ⟨t, rest, rfl, hshape⟩ := Reader.tokenTexts_eq_cons hprintable htexts
    obtain ⟨m, hm, hsame⟩ := Reader.program_gives (c := ⟨maxDepth, Reader.lastLine (t :: rest)⟩)
      hshape (Reader.statement_gives hprintable hliteral hnesting htexts)
    have hprogram := Reader.runs_run ⟨maxDepth, Reader.lastLine (t :: rest)⟩ .program 0 (t :: rest)
    rw [Reader.run, hm] at hprogram
    exact ⟨m, Reader.parse_eq_ok_iff.2 ⟨t :: rest, htokens, hprogram⟩, hsame⟩

/-- A text that is one quoted list. -/
theorem parse_of_items {source : String} {maxDepth : Nat} {opening : Token} {ts : List Token}
    {items : List Node} (htokens : tokenize source = .ok (opening :: ts))
    (hopening : opening.text = Opener.quotedBracket.text) (hdepth : 0 < maxDepth)
    (hitems : Reader.Runs ⟨maxDepth, Reader.lastLine (opening :: ts)⟩
      ((Reader.Goal.items .quotedBracket opening true true).plan 1) ts (.ok (items, []))) :
    parse source maxDepth = .ok [.list { quoted := true } items] := by
  have hshape := Token.shape_of_opener hopening
  refine Reader.parse_eq_ok_iff.2 ⟨opening :: ts, htokens, ?_⟩
  refine Reader.runs_program (by simp [hshape])
    (Reader.runs_statement (Reader.isName_of_opener hshape) (.peek ?_))
  rw [hshape]
  exact .shift (.deeper hdepth (.readOk hitems .give))

/-- An escaped name that needs no marker, next to a list with a bracket in a string, before a
comment. -/
theorem literal_reads_back_iff_nested :
    let n : Node := .list { quoted := true } [.identifier { depth := 1, quoted := true } "x",
      .list { depth := 1, quoted := true } [.string { depth := 2, quoted := true } "]"]]
    parse "'[@x (\"]\")] # data" 2 = .ok [n] ∧ n.display = "'[x [\"]\"]]" ∧
      ∃ m, parse n.display 2 = .ok [m] ∧ m.same n = true := by
  intro n
  have hitems : Reader.Runs ⟨2, 1⟩ ((Reader.Goal.items .paren ⟨"(", 1⟩ true true).plan 2)
      [⟨"\"]\"", 1⟩, ⟨")", 1⟩, ⟨"]", 1⟩]
      (.ok ([.string { depth := 2, quoted := true } "]"], [⟨"]", 1⟩])) :=
    .peek (.readOk (.peek (.shift .give)) (.readOk (.peek (.shift .give)) .give))
  have hlist : Reader.Runs ⟨2, 1⟩ (Reader.Goal.dataElement.plan 1)
      [⟨"(", 1⟩, ⟨"\"]\"", 1⟩, ⟨")", 1⟩, ⟨"]", 1⟩]
      (.ok ([.list { depth := 1, quoted := true } [.string { depth := 2, quoted := true } "]"]],
        [⟨"]", 1⟩])) :=
    .peek (.shift (.deeper (by decide) (.readOk hitems .give)))
  have htokens : tokenize "'[@x (\"]\")] # data" = .ok [⟨"'[", 1⟩, ⟨"@x", 1⟩, ⟨"(", 1⟩,
      ⟨"\"]\"", 1⟩, ⟨")", 1⟩, ⟨"]", 1⟩] := rfl
  have hparse : parse "'[@x (\"]\")] # data" 2 = .ok [n] :=
    parse_of_items htokens rfl (by decide) (.peek (.readOk (.peek (.shift .give))
      (.readOk (.peek (.readOk hlist (.readOk (.peek (.shift .give)) .give))) .give)))
  exact ⟨hparse, by decide +kernel, (literal_reads_back_iff hparse rfl).2 (by decide +kernel)⟩

/-- A marker is not printed, and without it this name is a number. -/
theorem escaped_number_not_read_back :
    let n : Node := .list { quoted := true } [.identifier { depth := 1, quoted := true } "5"]
    parse "'[@5]" 1 = .ok [n] ∧ n.isLiteral = true ∧ n.display = "'[5]" ∧
      ¬ ∃ m, parse n.display 1 = .ok [m] ∧ m.same n = true := by
  intro n
  have htokens : tokenize "'[@5]" = .ok [⟨"'[", 1⟩, ⟨"@5", 1⟩, ⟨"]", 1⟩] := rfl
  have hparse : parse "'[@5]" 1 = .ok [n] :=
    parse_of_items htokens rfl (by decide)
      (.peek (.readOk (.peek (.shift .give)) (.readOk (.peek (.shift .give)) .give)))
  have hdisplay : n.display = "'[5]" := by decide +kernel
  have hprinted : tokenize "'[5]" = .ok [⟨"'[", 1⟩, ⟨"5", 1⟩, ⟨"]", 1⟩] := rfl
  have hnumber : parse "'[5]" 1 = .ok [.list { quoted := true }
      [.number { depth := 1, quoted := true } (.int 5)]] :=
    parse_of_items hprinted rfl (by decide)
      (.peek (.readOk (.peek (.shift .give)) (.readOk (.peek (.shift .give)) .give)))
  refine ⟨hparse, rfl, hdisplay, ?_⟩
  rintro ⟨m, hm, hsame⟩
  rw [hdisplay, hnumber] at hm
  cases hm
  cases hsame

end ExprShell
