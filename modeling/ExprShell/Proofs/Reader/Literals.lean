/-
What a literal can hold that was read from a text (`isDatum_of_parse`): its names are words, its
strings have no double quote in them, and it is nested within the bound.

A literal is read where data would be (`dataElement_of_literal`), and all reading of data keeps a
contract (`readingData_kept`). The contract also counts marks, double quotes and ends of lists: the
tokens have no fewer of them than the printed form of what was read.
-/
import ExprShell.Proofs.Reader.ReadBack
import ExprShell.Proofs.Reader.Rules
import ExprShell.Proofs.Token.Content

namespace ExprShell

/-! ## Read data -/

namespace Node

mutual

/-- Data as it can be read: names are words, and strings have no double quote. -/
def isDatum : Node → Bool
  | .number .. | .boolean .. => true
  | .string _ text => !text.toList.contains '"'
  | .identifier _ name => !name.toList.isEmpty && name.toList.all Scanner.isWordChar
  | .list _ items => areData items
  | _ => false

def areData : List Node → Bool
  | [] => true
  | n :: rest => isDatum n && areData rest

end

mutual

/-- All names in data are plain. -/
def hasPlainNames : Node → Bool
  | .identifier _ name => Token.isPlainName name
  | .list _ items => havePlainNames items
  | _ => true

def havePlainNames : List Node → Bool
  | [] => true
  | n :: rest => hasPlainNames n && havePlainNames rest

end

theorem areData_iff {ns : List Node} : areData ns = true ↔ ∀ n ∈ ns, n.isDatum = true := by
  induction ns with
  | nil => simp [areData]
  | cons n rest ih => simp [areData, ih]

theorem nestingAll_le_iff {ns : List Node} {bound : Nat} :
    nestingAll ns ≤ bound ↔ ∀ n ∈ ns, n.nesting ≤ bound := by
  induction ns with
  | nil => simp [nestingAll]
  | cons n rest ih => rw [nestingAll, Nat.max_le, ih, List.forall_mem_cons]

@[simp] theorem isDatum_quote (n : Node) : n.quote.isDatum = n.isDatum := by
  cases n with
  | _ => rfl

@[simp] theorem nesting_quote (n : Node) : n.quote.nesting = n.nesting := by
  cases n with
  | _ => rfl

mutual

theorem isPrintable_of_isDatum (n : Node) (h : n.isDatum = true) (hnames : n.hasPlainNames = true) :
    n.isPrintable = true := by
  match n with
  | .number .. | .boolean .. => rfl
  | .string .. => exact h
  | .identifier .. => exact hnames
  | .list _ items => exact arePrintable_of_areData items h hnames
  | .function .. | .operator .. | .command .. | .commandResult .. | .error .. | .rawAst ..
  | .defunc .. => cases h

theorem arePrintable_of_areData (ns : List Node) (h : areData ns = true)
    (hnames : havePlainNames ns = true) : arePrintable ns = true := by
  match ns with
  | [] => rfl
  | n :: rest =>
    rw [areData, Bool.and_eq_true] at h
    rw [havePlainNames, Bool.and_eq_true] at hnames
    rw [arePrintable, isPrintable_of_isDatum n h.1 hnames.1,
      arePrintable_of_areData rest h.2 hnames.2]
    rfl

end

end Node

/-! ## Marks -/

/-- The double quote, and what ends a list. -/
def Scanner.isMark (c : Char) : Bool :=
  c == '"' || c == ')' || c == ']'

/-- How many marks there are in a text. -/
def Scanner.marks (text : List Char) : Nat :=
  text.countP isMark

namespace Node

mutual

/-- How many marks there are in the printed form of data. -/
def marks : Node → Nat
  | .string _ text => Scanner.marks text.toList + 2
  | .list _ items => marksAll items + 1
  | _ => 0

def marksAll : List Node → Nat
  | [] => 0
  | n :: rest => marks n + marksAll rest

end

mutual

theorem marks_of_same {m n : Node} (h : m.same n = true) : m.marks = n.marks := by
  match m, n with
  | .string .., .string .. =>
    simp only [same, beq_iff_eq] at h
    rw [marks, marks, h]
  | .list _ ms, .list _ ns =>
    rw [marks, marks, marksAll_of_sameAll h]
  | .number .., .number .. | .boolean .., .boolean .. | .function .., .function ..
  | .operator .., .operator .. | .identifier .., .identifier .. | .command .., .command ..
  | .commandResult .., .commandResult .. | .error .., .error .. | .rawAst .., .rawAst ..
  | .defunc .., .defunc .. => rfl

theorem marksAll_of_sameAll {ms ns : List Node} (h : sameAll ms ns = true) :
    marksAll ms = marksAll ns := by
  match ms, ns with
  | [], [] => rfl
  | m :: ms, n :: ns =>
    rw [sameAll, Bool.and_eq_true] at h
    rw [marksAll, marksAll, marks_of_same h.1, marksAll_of_sameAll h.2]

end

@[simp] theorem marks_quote (n : Node) : n.quote.marks = n.marks := by
  cases n with
  | _ => rfl

@[simp] theorem marksAll_append (ms ns : List Node) :
    marksAll (ms ++ ns) = marksAll ms + marksAll ns := by
  induction ms with
  | nil => simp [marksAll]
  | cons m ms ih =>
    rw [List.cons_append, marksAll, marksAll, ih]
    omega

end Node

namespace Scanner

variable {xs ys : List Char} {c : Char}

@[simp] theorem marks_nil : marks [] = 0 := rfl

@[simp] theorem marks_append (xs ys : List Char) : marks (xs ++ ys) = marks xs + marks ys :=
  List.countP_append

@[simp] theorem marks_cons (c : Char) (xs : List Char) :
    marks (c :: xs) = marks xs + if isMark c then 1 else 0 :=
  List.countP_cons

theorem isMark_eq_false (h : isWordChar c = true) : isMark c = false := by
  have hne : ∀ d : Char, isWordChar d = false → c ≠ d := by
    rintro d hd rfl
    rw [h] at hd
    cases hd
  simp [isMark, hne '"' rfl, hne ')' rfl, hne ']' rfl]

/-- Words have no marks. -/
theorem marks_of_word (h : ∀ c ∈ xs, isWordChar c = true) : marks xs = 0 := by
  refine List.countP_eq_zero.2 fun c hc => ?_
  rw [isMark_eq_false (h c hc)]
  exact Bool.false_ne_true

mutual

theorem marks_write (inside : Bool) (n : Node) (h : n.isDatum = true) :
    marks (n.write inside).toList = n.marks := by
  match n with
  | .number _ n => exact marks_of_word (IsWord.text n).2
  | .boolean _ b => exact marks_of_word (IsWord.boolean b).2
  | .string _ text => simp [Node.write, Node.marks, isMark]
  | .identifier _ name =>
    simp only [Node.isDatum, Bool.and_eq_true, List.all_eq_true] at h
    exact marks_of_word h.2
  | .list s items =>
    rw [Node.write, Node.marks]
    split
    · have hitems := marks_writeItems true items h
      cases inside with
      | true => simp [hitems, isMark]
      | false => simp [hitems, isMark]
    · have hitems := marks_writeItems false items h
      simp [hitems, isMark]
  | .function .. | .operator .. | .command .. | .commandResult .. | .error .. | .rawAst ..
  | .defunc .. => cases h

theorem marks_writeItems (inside : Bool) (ns : List Node) (h : Node.areData ns = true) :
    marks (Node.writeItems inside ns).toList = Node.marksAll ns := by
  match ns with
  | [] => rfl
  | [n] =>
    simp only [Node.areData, Bool.and_true] at h
    rw [Node.writeItems, marks_write inside n h]
    rfl
  | n :: m :: rest =>
    rw [Node.areData, Bool.and_eq_true] at h
    have hn := marks_write inside n h.1
    have hrest := marks_writeItems inside (m :: rest) h.2
    rw [Node.writeItems, Node.marksAll]
    simp [hn, hrest, isMark]

end

end Scanner

/-! ## Reading of data -/

namespace Reader

open Scanner (marks isMark)

variable {c : Context} {depth : Nat} {t : Token} {n : Node} {ts : List Token}

theorem text_of_closer {k : Closer} (h : t.shape = .closer k) : t.text = k.text := by
  unfold Token.shape at h
  split at h
  case h_6 heq | h_7 heq | h_8 heq =>
    cases h
    exact heq
  all_goals cases h

/-- What a word can be. -/
theorem atom_word_cases (hword : IsWord t.text) (h : atom depth t = .ok n) :
    (∃ x, n = .number { depth := depth } x) ∨ (∃ b, n = .boolean { depth := depth } b) ∨
    (∃ d rest, t.text.toList = '@' :: d :: rest ∧
      n = .identifier { depth := depth, quoted := true } (String.ofList (d :: rest))) ∨
    (t.isName = true ∧ n = nameAt depth t.text) := by
  obtain ⟨x, -, -, rfl⟩ | ⟨hstring, -⟩ | ⟨b, -, rfl⟩ | ⟨hescape, rfl⟩ | hname :=
    atom_cases (Token.shape_of_isWord hword) h
  · exact .inl ⟨x, rfl⟩
  · rw [Token.isString_of_isWord hword] at hstring
    cases hstring
  · exact .inr (.inl ⟨b, rfl⟩)
  · unfold Token.isEscape at hescape
    split at hescape
    · next d rest htext => exact .inr (.inr (.inl ⟨d, rest, htext, by rw [htext]; rfl⟩))
    · cases hescape
  · exact .inr (.inr (.inr hname))

/-- What an atom is made of. -/
theorem atom_isDatum (hformed : t.IsFormed) (hshape : t.shape = .word)
    (h : atom depth t = .ok n) :
    n.isDatum = true ∧ n.nesting = 0 ∧ n.marks ≤ marks t.text.toList := by
  obtain hdelimiter | hword | ⟨body, hbody, hquote⟩ := hformed
  · exact absurd hshape hdelimiter
  · obtain ⟨x, rfl⟩ | ⟨b, rfl⟩ | ⟨d, rest, htext, rfl⟩ | ⟨-, rfl⟩ := atom_word_cases hword h
    · exact ⟨rfl, rfl, Nat.zero_le _⟩
    · exact ⟨rfl, rfl, Nat.zero_le _⟩
    · have hrest := hword.2
      rw [htext] at hrest
      refine ⟨?_, rfl, Nat.zero_le _⟩
      simpa [Node.isDatum] using (List.forall_mem_cons.1 hrest).2
    · refine ⟨?_, rfl, Nat.zero_le _⟩
      simpa [Node.isDatum, nameAt] using hword
  · have htext : t.text = "\"" ++ String.ofList body ++ "\"" := by
      rw [← String.toList_inj]
      simp [hbody]
    rw [atom_string htext] at h
    cases h
    refine ⟨by simpa [Node.isDatum] using hquote, rfl, ?_⟩
    rw [hbody]
    simp [Node.marks, isMark]

/-! ### What data promises -/

/-- What is read is data: one item, which starts with no closer, or the items of a list. -/
def Goal.ReadsData (goal : Goal) (ts : List Token) : Prop :=
  match goal with
  | .dataElement => ∀ t rest, ts = t :: rest → t.isCloser = false
  | .items o _ quoted _ => quoted = true ∧ o ≠ .brace
  | _ => False

/-- The number of lists that a goal ends. -/
def Goal.closers : Goal → Nat
  | .items .. => 1
  | _ => 0

/-- What was read is data within the bound, and the tokens had all its marks. -/
def HoldsData (c : Context) (depth closers : Nat) (ts : List Token) : Result → Prop
  | .ok (nodes, rest) =>
    (∀ t ∈ rest, t.IsFormed) ∧
      (∀ n ∈ nodes, n.isDatum = true ∧ depth + n.nesting ≤ c.maxDepth) ∧
      Node.marksAll nodes + closers + marks (Token.chars rest) ≤ marks (Token.chars ts)
  | .error _ => True

def readingData (c : Context) : Contract where
  pre goal depth ts := depth ≤ c.maxDepth ∧ (∀ t ∈ ts, t.IsFormed) ∧ goal.ReadsData ts
  post goal depth ts r := HoldsData c depth goal.closers ts r

theorem marks_closer {o : Opener} (ho : o ≠ .brace) (h : t.shape = .closer o.closer) :
    marks t.text.toList = 1 := by
  rw [text_of_closer h]
  cases o with
  | brace => exact absurd rfl ho
  | _ => rfl

/-- An item of a list and the items after it. -/
theorem meets_sequence {o : Opener} {opening : Token} {rest : List Token} (ho : o ≠ .brace)
    (hdepth : depth ≤ c.maxDepth) (hformed : ∀ u ∈ t :: rest, u.IsFormed)
    (ht : ∀ k, t.shape ≠ .closer k) :
    (Plan.sequence .dataElement (.items o opening true false) depth).Meets c (readingData c)
      (HoldsData c depth 1 (t :: rest)) (t :: rest) := by
  refine ⟨⟨hdepth, hformed, ?_⟩, fun _ _ => trivial, ?_⟩
  · intro t' rest' heq
    cases heq
    unfold Token.isCloser
    split
    · next k hk => exact absurd hk (ht k)
    · rfl
  · rintro nodes after ⟨hformed, hnodes, hmarks⟩
    refine ⟨⟨hdepth, hformed, rfl, ho⟩, fun _ _ => trivial, ?_⟩
    rintro others final ⟨hformed, hothers, hmarks'⟩
    refine ⟨hformed, List.forall_mem_append.2 ⟨hnodes, hothers⟩, ?_⟩
    rw [Node.marksAll_append]
    simp only [Goal.closers] at hmarks hmarks'
    omega

/-- A list in data. -/
theorem meets_dataList {o : Opener} {rest : List Token} (ho : o ≠ .brace)
    (hformed : ∀ u ∈ t :: rest, u.IsFormed) :
    (Plan.dataList depth o t).Meets c (readingData c) (HoldsData c depth 0 (t :: rest)) rest := by
  have hrest := (List.forall_mem_cons.1 hformed).2
  refine ⟨fun hdepth => ⟨⟨hdepth, hrest, rfl, ho⟩, fun _ _ => trivial, ?_⟩, fun _ => trivial⟩
  rintro items after ⟨hformed, hitems, hmarks⟩
  refine ⟨hformed, List.forall_mem_singleton.2 ⟨?_, ?_⟩, ?_⟩
  · exact Node.areData_iff.2 fun n hn => (hitems n hn).1
  · have hnesting : Node.nestingAll items ≤ c.maxDepth - (depth + 1) := by
      refine Node.nestingAll_le_iff.2 fun n hn => ?_
      have hbound := (hitems n hn).2
      omega
    rw [Node.nesting]
    omega
  · simp only [Goal.closers] at hmarks
    simp only [Node.marksAll, Node.marks, Token.chars_cons, Scanner.marks_append]
    omega

theorem meets_word {rest : List Token} (hdepth : depth ≤ c.maxDepth)
    (hformed : ∀ u ∈ t :: rest, u.IsFormed) (hshape : t.shape = .word) :
    (Plan.word depth t Node.quote).Meets c (readingData c) (HoldsData c depth 0 (t :: rest))
      (t :: rest) := by
  intro t' rest' heq
  cases heq
  obtain ⟨ht, hrest⟩ := List.forall_mem_cons.1 hformed
  cases hatom : atom depth t with
  | error cause => trivial
  | ok n =>
    obtain ⟨hdatum, hnesting, hmarks⟩ := atom_isDatum ht hshape hatom
    refine ⟨hrest, List.forall_mem_singleton.2 ⟨?_, ?_⟩, ?_⟩
    · rw [Node.isDatum_quote]
      exact hdatum
    · rw [Node.nesting_quote, hnesting]
      exact hdepth
    · simp only [Node.marksAll, Node.marks_quote, Token.chars_cons, Scanner.marks_append]
      omega

theorem readingData_kept (c : Context) : (readingData c).Kept c := by
  rintro goal depth ts ⟨hdepth, hformed, hdata⟩
  cases goal with
  | items o opening quoted first =>
    obtain ⟨rfl, ho⟩ := hdata
    refine ⟨fun _ => trivial, ?_⟩
    rintro t rest rfl
    dsimp only
    cases hshape : t.shape with
    | closer k =>
      dsimp only
      split
      · next hk =>
        intro t' rest' heq
        cases heq
        subst hk
        refine ⟨(List.forall_mem_cons.1 hformed).2, List.forall_mem_nil _, ?_⟩
        rw [Token.chars_cons, Scanner.marks_append, marks_closer ho hshape]
        exact Nat.le_refl _
      · trivial
    | opener _ | separator | word =>
      exact meets_sequence ho hdepth hformed fun k => by simp [hshape]
  | dataElement =>
    refine ⟨fun _ _ => trivial, ?_⟩
    rintro t rest rfl
    dsimp only
    cases hshape : t.shape with
    | opener o =>
      cases o with
      | brace => trivial
      | _ =>
        intro t' rest' heq
        cases heq
        exact meets_dataList (by decide) hformed
    | separator => trivial
    | closer k =>
      have hcloser := hdata t rest rfl
      simp [Token.isCloser, hshape] at hcloser
    | word => exact meets_word hdepth hformed hshape
  | _ => cases hdata

/-! ### Where literals come from -/

/-- Whatever a plan reads on the way, the nodes that it gives have a property. -/
def Plan.AllGive (P : Node → Prop) : Plan → Prop
  | .give nodes => ∀ n ∈ nodes, P n
  | .refuse .. | .refuseAtEnd .. => True
  | .peek atEnd next => atEnd.AllGive P ∧ ∀ t, (next t).AllGive P
  | .shift next => next.AllGive P
  | .deeper _ _ next => next.AllGive P
  | .read _ _ next => ∀ nodes count, (next nodes count).AllGive P

theorem Runs.allGive {P : Node → Prop} {p : Plan} {r : Result} (h : Runs c p ts r)
    (hp : p.AllGive P) {nodes : List Node} {rest : List Token} (hr : r = .ok (nodes, rest)) :
    ∀ n ∈ nodes, P n := by
  induction h with
  | give =>
    cases hr
    exact hp
  | refuse | refuseAtEnd | tooDeep | readError => cases hr
  | peekEnd _ ih => exact ih hp.1 hr
  | peek _ ih => exact ih (hp.2 _) hr
  | shift _ ih => exact ih hp hr
  | deeper _ _ ih => exact ih hp hr
  | readOk _ _ _ ih => exact ih (hp _ _) hr

namespace Plan.AllGive

variable {P : Node → Prop} {keyword : Token}

/-- A binding is a call. -/
theorem letForm (hcall : ∀ items, P (callAt depth items)) :
    AllGive P (.letForm depth keyword) := by
  have hend : ∀ single items, AllGive P (.letEnd depth keyword single (callAt depth items)) := by
    intro single items
    have hgive : AllGive P (.give [callAt depth items]) :=
      List.forall_mem_singleton.2 (hcall items)
    refine ⟨?_, fun t => ?_⟩
    · split
      · trivial
      · exact hgive
    · dsimp only
      split
      · exact hgive
      · split
        · trivial
        · exact hgive
  have hequals : ∀ isGlobal name, AllGive P (.letEquals depth keyword isGlobal name) := by
    refine fun isGlobal name => ⟨trivial, fun t => ?_⟩
    dsimp only
    split
    · exact fun value count => hend _ _
    · trivial
  have hname : ∀ isGlobal, AllGive P (.letName depth keyword isGlobal) := by
    refine fun isGlobal => ⟨trivial, fun t => ?_⟩
    dsimp only
    split
    · exact hequals _ _
    · trivial
  refine ⟨trivial, fun t => ?_⟩
  dsimp only
  split
  · refine ⟨trivial, fun next => ?_⟩
    dsimp only
    split
    · exact hequals _ _
    · exact hname _
  · exact hname _

theorem branches {next : List Node → Plan} (h : ∀ bs, AllGive P (next bs)) :
    AllGive P (.branches depth keyword next) := by
  intro bs count
  dsimp only
  split
  · trivial
  · exact h bs

theorem keywordForm {k : Keyword} (hcall : ∀ items, P (callAt depth items)) :
    AllGive P ((Goal.keywordForm k keyword).plan depth) := by
  cases k with
  | letWord => exact letForm hcall
  | matchWord =>
    refine ⟨trivial, fun _ value _ => branches fun bs => ?_⟩
    exact List.forall_mem_singleton.2 (hcall _)
  | condWord => exact branches fun bs => List.forall_mem_singleton.2 (hcall _)

theorem listExpression {o : Opener} (hcall : ∀ items, P (callAt depth items))
    (hfunction : ∀ params body, P (.function { depth := depth } params body)) :
    AllGive P (.listExpression depth o t) := by
  have hitems : ∀ items, AllGive P (.call depth t items) := by
    intro items
    unfold Plan.call
    split
    · exact List.forall_mem_singleton.2 (hcall _)
    · trivial
  have hbody : ∀ items, AllGive P (.function depth t items) := by
    intro items
    unfold Plan.function
    split
    · exact fun nodes _ => List.forall_mem_singleton.2 (hfunction _ _)
    · trivial
  refine fun items _ => ⟨hitems items, fun arrow => ?_⟩
  dsimp only
  split
  · exact hbody items
  · exact hitems items

end Plan.AllGive

theorem keywordForm_not_literal {k : Keyword} {keyword : Token} {rest : List Token}
    (h : Runs c ((Goal.keywordForm k keyword).plan depth) ts (.ok ([n], rest))) :
    n.isLiteral = false :=
  h.allGive (P := (·.isLiteral = false)) (.keywordForm fun _ => rfl) rfl n
    (List.mem_singleton_self n)

/-- A name starts no literal. -/
theorem named_not_literal {rest : List Token}
    (h : Runs c (.named depth t) ts (.ok ([n], rest))) : n.isLiteral = false := by
  unfold Plan.named at h
  split at h
  · exact keywordForm_not_literal h.of_just
  · cases ts with
    | nil =>
      cases h with
      | peekEnd h =>
        cases h
        rfl
    | cons next ts =>
      have h := h.of_peek
      split at h
      · cases h
        rfl
      · refine h.of_just.allGive (P := (·.isLiteral = false)) ?_ rfl n (List.mem_singleton_self n)
        exact fun args _ => List.forall_mem_singleton.2 rfl

/-- A literal is read where data would be, and as data but for its quotes. -/
theorem dataElement_of_literal {rest : List Token}
    (h : Runs c (Goal.statement.plan depth) (t :: ts) (.ok ([n], rest)))
    (hl : n.isLiteral = true) :
    t.isCloser = false ∧ ∃ n', Runs c (Goal.dataElement.plan depth) (t :: ts) (.ok ([n'], rest)) ∧
      n'.isDatum = n.isDatum ∧ n'.nesting = n.nesting := by
  have hnot : ∀ {p : Plan} {us : List Token}, Runs c p us (.ok ([n], rest)) →
      ¬ p.AllGive (·.isLiteral = false) := by
    intro p us hruns hp
    have hfalse := hruns.allGive hp rfl n (List.mem_singleton_self n)
    rw [hl] at hfalse
    cases hfalse
  have h := h.of_peek
  split at h
  · rw [named_not_literal h.of_shift] at hl
    cases hl
  have h := h.of_just.of_peek
  cases hshape : t.shape with
  | closer _ | separator =>
    rw [hshape] at h
    cases h
  | opener o =>
    rw [hshape] at h
    have h := h.of_shift
    refine ⟨by simp [Token.isCloser, hshape], ?_⟩
    cases o with
    | paren | bracket =>
      exact absurd (Plan.AllGive.listExpression (fun _ => rfl) fun _ _ => rfl) (hnot h)
    | brace =>
      refine absurd ?_ (hnot h)
      exact fun body _ => List.forall_mem_singleton.2 rfl
    | quotedParen | quotedBracket =>
      refine ⟨n, .peek ?_, rfl, rfl⟩
      rw [hshape]
      exact .shift h
  | word =>
    rw [hshape] at h
    refine ⟨by simp [Token.isCloser, hshape], ?_⟩
    cases hkeyword : t.keyword? with
    | some k =>
      rw [hkeyword] at h
      rw [keywordForm_not_literal h.of_shift.of_just] at hl
      cases hl
    | none =>
      rw [hkeyword] at h
      have h := h.of_shift
      cases hatom : atom depth t with
      | error cause =>
        rw [hatom] at h
        cases h
      | ok n' =>
        rw [hatom] at h
        cases h
        refine ⟨n'.quote, .peek ?_, n'.isDatum_quote, n'.nesting_quote⟩
        rw [hshape, Plan.word, hatom]
        exact .shift .give

theorem statement_of_program_cons {rest : List Token} (ht : t.shape ≠ .separator)
    (h : Runs c (Goal.program.plan depth) (t :: ts) (.ok ([n], rest))) :
    ∃ after, Runs c (Goal.statement.plan depth) (t :: ts) (.ok ([n], after)) := by
  have h := h.of_peek
  rw [if_neg ht] at h
  cases h with
  | readOk hfirst hothers =>
    cases hothers with
    | readOk _ hgive =>
      obtain ⟨m, rfl⟩ := single_eq_ok (runs_iff.1 hfirst)
      cases hgive
      exact ⟨_, hfirst⟩

/-- A program of one expression has that expression among its tokens. -/
theorem statement_of_program {rest : List Token}
    (h : Runs c (Goal.program.plan depth) ts (.ok ([n], rest))) :
    ∃ t us after, (∀ u ∈ t :: us, u ∈ ts) ∧
      Runs c (Goal.statement.plan depth) (t :: us) (.ok ([n], after)) := by
  induction ts with
  | nil =>
    cases h with
    | peekEnd h => cases h
  | cons t us ih =>
    by_cases ht : t.shape = .separator
    · have h := h.of_peek
      rw [if_pos ht] at h
      obtain ⟨t', us', after, hmem, hstatement⟩ := ih h.of_shift.of_just
      exact ⟨t', us', after, fun u hu => List.mem_cons_of_mem t (hmem u hu), hstatement⟩
    · obtain ⟨after, hstatement⟩ := statement_of_program_cons ht h
      exact ⟨t, us, after, fun u hu => hu, hstatement⟩

end Reader

/-- A literal that was read from a text is data, within the bound on nesting. -/
theorem isDatum_of_parse {source : String} {maxDepth : Nat} {n : Node}
    (h : parse source maxDepth = .ok [n]) (hl : n.isLiteral = true) :
    n.isDatum = true ∧ n.nesting ≤ maxDepth := by
  obtain ⟨tokens, htokens, hprogram⟩ := Reader.parse_eq_ok_iff.1 h
  obtain ⟨t, us, rest, hmem, hstatement⟩ := Reader.statement_of_program hprogram
  obtain ⟨hcloser, n', hdata, hdatum, hnesting⟩ := Reader.dataElement_of_literal hstatement hl
  have hformed : ∀ u ∈ t :: us, u.IsFormed := fun u hu =>
    isFormed_of_tokenize htokens u (hmem u hu)
  have hpost := hdata.post (Reader.readingData_kept _) ⟨Nat.zero_le _, hformed, ?_⟩
  · obtain ⟨-, hn, -⟩ := hpost
    obtain ⟨hn, hbound⟩ := hn n' (List.mem_singleton_self n')
    rw [hdatum] at hn
    rw [hnesting, Nat.zero_add] at hbound
    exact ⟨hn, hbound⟩
  · intro t' rest' heq
    cases heq
    exact hcloser

end ExprShell
