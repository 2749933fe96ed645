/-
Where a quoted list ends. Read from a quoted opener, the tokens are accepted exactly up to the
closer of that opener, if the delimiters between the two are nested and nothing there is a brace, a
separator or a number out of range (`readAt_quoted_iff`). Such tokens are those that spell data
(`exists_spells_iff`), and the depth of their delimiters is that of the data
(`Spells.deepest_append`).
-/
import ExprShell.Proofs.Reader.Spelling
import ExprShell.Proofs.Token.Nesting

namespace ExprShell

/-! ## Tokens that spell data -/

/-- The token can stand in quoted data: it is no brace, no separator and no number out of range. -/
def Token.IsDatum (t : Token) : Prop :=
  t.shape ∉ [.opener .brace, .closer .brace, .separator] ∧
    (t.isNumber = true → Number.minSigned ≤ Number.literalValue t.text ∧
      Number.literalValue t.text ≤ Number.maxUnsigned)

theorem Token.Denotes.isDatum {depth : Nat} {t : Token} {n : Node} (h : t.Denotes depth n) :
    t.IsDatum := by
  obtain ⟨hshape, m, hatom, -⟩ := Reader.atom_of_denotes h
  refine ⟨by simp [hshape], fun hnumber => ?_⟩
  rw [← Number.exists_ofLiteral?_iff]
  cases hliteral : Number.ofLiteral? t.text with
  | some x => exact ⟨x, rfl⟩
  | none => simp [Reader.atom, hnumber, hliteral] at hatom

theorem Token.isDatum_of_delimiter {t : Token} (hword : t.shape ≠ .word)
    (h : t.shape ∉ [.opener .brace, .closer .brace, .separator]) : t.IsDatum :=
  ⟨h, fun hnumber => absurd (Reader.shape_of_isNumber hnumber) hword⟩

/-- A word stands for something unless it is a number out of range. -/
theorem Token.IsDatum.exists_denotes {t : Token} (h : t.IsDatum) (hshape : t.shape = .word)
    (depth : Nat) : ∃ n, t.Denotes depth n := by
  by_cases hnumber : t.isNumber = true
  · obtain ⟨x, hx⟩ := Number.exists_ofLiteral?_iff.2 (h.2 hnumber)
    obtain ⟨hvalue, hnormal⟩ := Number.ofLiteral?_eq_some_iff.1 hx
    exact ⟨_, .number hnumber hvalue hnormal⟩
  · cases hatom : Reader.atom depth t with
    | ok n => exact ⟨_, Reader.denotes_of_atom hshape hatom⟩
    | error cause =>
      unfold Reader.atom at hatom
      rw [if_neg hnumber] at hatom
      repeat' split at hatom
      all_goals cases hatom

/-- Nested delimiters with words between them spell data, and nothing else does. -/
theorem exists_spells_iff {depth : Nat} {ts : List Token} :
    (∃ ns, Spells depth ts ns) ↔ Token.Nested ts ∧ ∀ t ∈ ts, t.IsDatum := by
  constructor
  · rintro ⟨ns, h⟩
    induction h with
    | nil => exact ⟨.nil, List.forall_mem_nil _⟩
    | word hword _ ih =>
      have hshape := (Reader.atom_of_denotes hword).1
      exact ⟨.neutral (.inl hshape) ih.1, List.forall_mem_cons.2 ⟨hword.isDatum, ih.2⟩⟩
    | @list _ o _ _ _ _ _ _ ho hopening hclosing _ _ ihitems ih =>
      refine ⟨.group ⟨o, hopening, hclosing⟩ ihitems.1 ih.1, List.forall_mem_append.2
        ⟨List.forall_mem_cons.2 ⟨?_, ihitems.2⟩, List.forall_mem_cons.2 ⟨?_, ih.2⟩⟩⟩
      · exact Token.isDatum_of_delimiter (by simp [hopening]) (by simp [hopening, ho])
      · refine Token.isDatum_of_delimiter (by simp [hclosing]) ?_
        cases o with
        | brace => exact absurd rfl ho
        | _ => simp [hclosing, Opener.closer]
  · rintro ⟨hnested, hdata⟩
    induction hnested generalizing depth with
    | nil => exact ⟨[], .nil⟩
    | neutral hneutral _ ih =>
      obtain ⟨ht, hts⟩ := List.forall_mem_cons.1 hdata
      obtain hshape | hshape := hneutral
      · obtain ⟨n, hn⟩ := ht.exists_denotes hshape depth
        obtain ⟨ns, hns⟩ := ih hts
        exact ⟨n :: ns, .word hn hns⟩
      · exact absurd ht.1 (by simp [hshape])
    | group hcloses _ _ ihinner ih =>
      obtain ⟨hgroup, hrest⟩ := List.forall_mem_append.1 hdata
      obtain ⟨hopener, hinner⟩ := List.forall_mem_cons.1 hgroup
      obtain ⟨o, hopening, hclosing⟩ := hcloses
      have ho : o ≠ .brace := by
        rintro rfl
        exact hopener.1 (by simp [hopening])
      obtain ⟨items, hitems⟩ := ihinner hinner
      obtain ⟨ns, hns⟩ := ih (List.forall_mem_cons.1 hrest).2
      exact ⟨_, .list ho hopening hclosing hitems hns⟩

/-- The delimiters are nested as deep as the data. -/
theorem Spells.deepest_append {depth : Nat} {us : List Token} {ns : List Node}
    (h : Spells depth us ns) (level : Nat) (ts : List Token) :
    Token.deepest level (us ++ ts) = max (level + Node.nestingAll ns) (Token.deepest level ts) := by
  induction h generalizing level ts with
  | nil =>
    have hle := Token.le_deepest level ts
    simp only [List.nil_append, Node.nestingAll]
    omega
  | word hword _ ih =>
    have hshape := (Reader.atom_of_denotes hword).1
    simp only [List.cons_append, Token.deepest, hshape, ih, Node.nestingAll, hword.nesting_eq]
    omega
  | list _ hopening hclosing _ _ ihitems ih =>
    simp only [List.cons_append, List.append_assoc, Token.deepest, hopening, hclosing, ihitems, ih,
      Node.nestingAll, Node.nesting, Nat.add_sub_cancel]
    omega

/-! ## The end of a list -/

/-- Every opener of the sequence is that of a list and is closed by its own kind of closer. -/
def Token.Bracketed (ts : List Token) : Prop :=
  Nested ts ∧ ∀ t ∈ ts, t.shape ≠ .opener .brace

/-- The sequence starts with a list of data that ends at an index: up to there the delimiters are
bracketed for the first time, all tokens can stand in data, and no more openers are open at once
than a bound allows. -/
structure Token.EndsList (ts : List Token) (bound k : Nat) : Prop where
  inside : k < ts.length
  bracketed : Bracketed (ts.take (k + 1))
  shortest : ∀ j < k, ¬ Bracketed (ts.take (j + 1))
  data : ∀ t ∈ ts.take (k + 1), t.IsDatum
  nesting : deepest 0 (ts.take (k + 1)) ≤ bound

theorem Spells.bracketed {depth : Nat} {ts : List Token} {ns : List Node} (h : Spells depth ts ns) :
    Token.Bracketed ts := by
  obtain ⟨hnested, hdata⟩ := exists_spells_iff.1 ⟨ns, h⟩
  refine ⟨hnested, fun t ht hshape => ?_⟩
  exact (hdata t ht).1 (by simp [hshape])

theorem Spells.deepest_eq {ts : List Token} {n : Node} (h : Spells 0 ts [n]) :
    Token.deepest 0 ts = n.nesting := by
  have hdeepest := h.deepest_append 0 []
  rw [List.append_nil] at hdeepest
  simp only [hdeepest, Node.nestingAll, Token.deepest]
  omega

section Lists

variable {depth bound k : Nat} {opening : Token} {o : Opener} {n : Node} {ns : List Node}
  {us ts : List Token}

/-- What spells data and starts with an opener starts with a list. -/
theorem Spells.list_inv (hopening : opening.shape = .opener o)
    (h : Spells depth (opening :: us) ns) :
    ∃ inner closing others items ms, us = inner ++ closing :: others ∧ o ≠ .brace ∧
      closing.shape = .closer o.closer ∧ Spells (depth + 1) inner items ∧
      Spells depth others ms ∧ ns = .list { depth := depth, quoted := true } items :: ms := by
  generalize hts : opening :: us = ts at h
  cases h with
  | nil => cases hts
  | word hword _ =>
    cases hts
    have hshape := (Reader.atom_of_denotes hword).1
    rw [hopening] at hshape
    cases hshape
  | list ho hopening' hclosing hitems hrest =>
    obtain ⟨rfl, rfl⟩ := List.cons.inj hts
    cases hopening.symm.trans hopening'
    exact ⟨_, _, _, _, _, rfl, ho, hclosing, hitems, hrest, rfl⟩

/-- One node that starts with an opener is a list. -/
theorem Spells.single_inv (hopening : opening.shape = .opener o)
    (h : Spells depth (opening :: us) [n]) :
    ∃ inner closing items, us = inner ++ [closing] ∧ closing.shape = .closer o.closer ∧
      Spells (depth + 1) inner items ∧ n = .list { depth := depth, quoted := true } items := by
  obtain ⟨inner, closing, others, items, ms, rfl, -, hclosing, hitems, hothers, heq⟩ :=
    h.list_inv hopening
  obtain ⟨rfl, rfl⟩ := List.cons.inj heq
  cases hothers
  exact ⟨inner, closing, items, rfl, hclosing, hitems, rfl⟩

theorem Spells.endsList (hopening : opening.shape = .opener o)
    (h : Spells 0 (opening :: us) [n]) (hbound : n.nesting ≤ bound) (rest : List Token) :
    Token.EndsList (opening :: us ++ rest) bound us.length := by
  have htake : (opening :: us ++ rest).take (us.length + 1) = opening :: us := by simp
  refine ⟨?_, ?_, fun j hj hbracketed => ?_, ?_, ?_⟩
  · rw [List.length_append, List.length_cons]
    omega
  · rw [htake]
    exact h.bracketed
  · obtain ⟨inner, closing, items, rfl, -, hitems, -⟩ := h.single_inv hopening
    rw [List.length_append, List.length_singleton] at hj
    have hinner : (opening :: (inner ++ [closing]) ++ rest).take (j + 1) =
        opening :: inner.take j := by
      simp [List.take_append_of_le_length (Nat.le_of_lt_succ hj)]
    rw [hinner] at hbracketed
    exact hitems.bracketed.1.not_nested_take hopening j hbracketed.1
  · rw [htake]
    exact (exists_spells_iff.1 ⟨_, h⟩).2
  · rw [htake, h.deepest_eq]
    exact hbound

theorem Token.EndsList.exists_spells (hopening : opening.shape = .opener o)
    (h : Token.EndsList (opening :: ts) bound k) :
    ∃ n, Spells 0 ((opening :: ts).take (k + 1)) [n] ∧ n.nesting ≤ bound := by
  obtain ⟨ns, hspells⟩ : ∃ ns, Spells 0 ((opening :: ts).take (k + 1)) ns :=
    exists_spells_iff.2 ⟨h.bracketed.1, h.data⟩
  have hinside := h.inside
  have hnesting := h.nesting
  rw [List.take_succ_cons] at hspells hnesting ⊢
  obtain ⟨inner, closing, others, items, ms, htake, ho, hclosing, hitems, -⟩ :=
    hspells.list_inv hopening
  have hlist : Spells 0 (opening :: inner ++ [closing]) [.list { quoted := true } items] :=
    .list ho hopening hclosing hitems .nil
  -- the list is bracketed, so it does not end before the index
  have hlast : k ≤ inner.length + 1 := by
    refine Nat.le_of_not_lt fun hlt => h.shortest _ hlt ?_
    have hstart : (opening :: ts).take (inner.length + 1 + 1) = opening :: inner ++ [closing] := by
      rw [← List.take_append_drop k ts, htake]
      simp [List.take_length_add_append]
    rw [hstart]
    exact hlist.bracketed
  have hothers : others = [] := by
    have hlength := congrArg List.length htake
    rw [List.length_take, List.length_append, List.length_cons] at hlength
    rw [List.length_cons] at hinside
    exact List.eq_nil_of_length_eq_zero (by omega)
  subst hothers
  rw [htake] at hnesting ⊢
  exact ⟨_, hlist, hlist.deepest_eq ▸ hnesting⟩

end Lists

/-! ## Reading -/

namespace Reader

variable {c : Context} {depth : Nat} {r : Reader} {opening : Token} {o : Opener} {n : Node}
  {ns : List Node} {ts rest : List Token}

/-- Data that starts with an opener is read exactly up to where a list ends that its tokens
spell. -/
theorem dataElement_iff (ho : o ≠ .brace) (hopening : opening.shape = .opener o) :
    Runs c (Goal.dataElement.plan depth) (opening :: ts) (.ok ([n], rest)) ↔
      ∃ us, opening :: ts = us ++ rest ∧ Spells depth us [n] ∧ depth + n.nesting ≤ c.maxDepth := by
  constructor
  · intro h
    obtain ⟨hdepth, items, hitems, rfl⟩ := dataElement_list_inv ho hopening h
    obtain ⟨inner, closing, rfl, hclosing, hinner, hnesting⟩ := spells_of_items hdepth hitems
    refine ⟨opening :: inner ++ [closing], by simp, .list ho hopening hclosing hinner .nil, ?_⟩
    rw [Node.nesting]
    omega
  · rintro ⟨us, htokens, hspells, hnesting⟩
    cases us with
    | nil => cases hspells
    | cons t us =>
      rw [List.cons_append] at htokens
      obtain ⟨rfl, rfl⟩ := List.cons.inj htokens
      obtain ⟨inner, closing, items, rfl, hclosing, hinner, rfl⟩ := hspells.single_inv hopening
      rw [Node.nesting] at hnesting
      rw [List.append_assoc]
      exact runs_dataList ho hopening (by omega) (items_of_spells hinner (by omega) hclosing)

/-- A quoted opener starts data where a statement is expected. -/
theorem statement_quoted_iff (ho : o = .quotedParen ∨ o = .quotedBracket)
    (hopening : opening.shape = .opener o) :
    Runs c (Goal.statement.plan depth) (opening :: ts) (.ok (ns, rest)) ↔
      Runs c (Goal.dataElement.plan depth) (opening :: ts) (.ok (ns, rest)) := by
  have hname := isName_of_opener hopening
  have hplan : Plan.opened depth opening o = .dataList depth o opening := by
    obtain rfl | rfl := ho
    all_goals rfl
  rw [runs_dataOpener (ne_brace_of_quoted ho) hopening, ← hplan]
  constructor
  · intro h
    have h := h.of_peek
    rw [hname] at h
    have h := h.of_just.of_peek
    rw [hopening] at h
    exact h.of_shift
  · intro h
    exact runs_statement hname (runs_opened hopening h)

/-- What a reader finds at a token is what the rule for statements finds there. -/
theorem readAt_eq_ok_iff {start k : Nat} :
    (∃ located, (r.readAt start).1 = .ok located ∧ located.node = n ∧ located.endIndex = k) ↔
      ∃ rest, Runs r.context (Goal.statement.plan 0) (r.tokens.drop start) (.ok ([n], rest)) ∧
        r.tokens.length - rest.length - 1 = k := by
  simp only [runs_iff, run]
  cases h : statement r.context 0 (r.tokens.drop start) with
  | ok p =>
    rw [readAt_of_statement h]
    constructor
    · rintro ⟨located, hlocated, rfl, rfl⟩
      cases hlocated
      exact ⟨p.rest, rfl, rfl⟩
    · rintro ⟨rest, hrest, rfl⟩
      cases hrest
      exact ⟨_, rfl, rfl, rfl⟩
  | error f =>
    rw [readAt_of_failure h]
    constructor
    · rintro ⟨located, hlocated, -⟩
      cases hlocated
    · rintro ⟨rest, hrest, -⟩
      cases hrest

/-- From a quoted opener a reader finds what some of the first tokens spell. -/
theorem readAt_quoted_spells (htokens : r.tokens = opening :: ts)
    (ho : o = .quotedParen ∨ o = .quotedBracket) (hopening : opening.shape = .opener o) {k : Nat} :
    (∃ located, (r.readAt 0).1 = .ok located ∧ located.node = n ∧ located.endIndex = k) ↔
      k < r.tokens.length ∧ Spells 0 (r.tokens.take (k + 1)) [n] ∧ n.nesting ≤ r.maxDepth := by
  have hruns (rest : List Token) :
      Runs r.context (Goal.statement.plan 0) (r.tokens.drop 0) (.ok ([n], rest)) ↔
        ∃ us, r.tokens = us ++ rest ∧ Spells 0 us [n] ∧ n.nesting ≤ r.maxDepth := by
    rw [List.drop_zero, htokens, statement_quoted_iff ho hopening,
      dataElement_iff (ne_brace_of_quoted ho) hopening, Nat.zero_add]
    rfl
  simp only [readAt_eq_ok_iff, hruns]
  constructor
  · rintro ⟨rest, ⟨us, hus, hspells, hnesting⟩, rfl⟩
    have hlength : us.length ≠ 0 := by
      intro hnil
      cases List.eq_nil_of_length_eq_zero hnil
      cases hspells
    have hk : r.tokens.length - rest.length - 1 + 1 = us.length := by
      rw [hus, List.length_append]
      omega
    rw [hk, hus, List.take_left, List.length_append]
    exact ⟨by omega, hspells, hnesting⟩
  · rintro ⟨hk, hspells, hnesting⟩
    refine ⟨_, ⟨_, (List.take_append_drop (k + 1) _).symm, hspells, hnesting⟩, ?_⟩
    rw [List.length_drop]
    omega

/-- **Quoted lists are read exactly if they are well formed.** Where the tokens start with a quoted
opener, reading them succeeds with the index of a last token if and only if the tokens up to there
are bracketed for the first time, have no brace, separator or number out of range among them, and
are nested no deeper than the reader allows. The result is then what these tokens spell. -/
theorem readAt_quoted_iff (r : Reader) (htokens : r.tokens = opening :: ts)
    (ho : o = .quotedParen ∨ o = .quotedBracket) (hopening : opening.text = o.text) :
    (∀ k, (∃ located, (r.readAt 0).1 = .ok located ∧ located.endIndex = k) ↔
      Token.EndsList r.tokens r.maxDepth k) ∧
    ∀ located, (r.readAt 0).1 = .ok located →
      ∀ n, Spells 0 (r.tokens.take (located.endIndex + 1)) [n] ↔ n = located.node := by
  have hshape := Token.shape_of_opener hopening
  have hfound {located : Located} (hlocated : (r.readAt 0).1 = .ok located) :
      located.endIndex < r.tokens.length ∧
        Spells 0 (r.tokens.take (located.endIndex + 1)) [located.node] ∧
        located.node.nesting ≤ r.maxDepth :=
    (readAt_quoted_spells htokens ho hshape).1 ⟨located, hlocated, rfl, rfl⟩
  refine ⟨fun k => ⟨?_, fun hends => ?_⟩, fun located hlocated n => ⟨fun hn => ?_, ?_⟩⟩
  · rintro ⟨located, hlocated, rfl⟩
    obtain ⟨hk, hspells, hnesting⟩ := hfound hlocated
    rw [htokens] at hk hspells ⊢
    rw [List.take_succ_cons] at hspells
    have hends := hspells.endsList hshape hnesting (ts.drop located.endIndex)
    rw [List.cons_append, List.take_append_drop, List.length_take_of_le (Nat.le_of_lt_succ hk)]
      at hends
    exact hends
  · have hk := hends.inside
    rw [htokens] at hends
    obtain ⟨n, hspells, hnesting⟩ := hends.exists_spells hshape
    rw [← htokens] at hspells
    obtain ⟨located, hlocated, -, hend⟩ :=
      (readAt_quoted_spells htokens ho hshape).2 ⟨hk, hspells, hnesting⟩
    exact ⟨located, hlocated, hend⟩
  · cases hn.unique (hfound hlocated).2.1
    rfl
  · rintro rfl
    exact (hfound hlocated).2.1

/-- The greatest number, in the list of a list that is as deep as the reader allows; what follows
is not looked at. -/
theorem readAt_quoted_iff_nested :
    let r := ofTokens [⟨"'(", 1⟩, ⟨"[", 1⟩, ⟨"18446744073709551615", 2⟩, ⟨"]", 2⟩, ⟨")", 2⟩,
      ⟨";", 3⟩] 2
    let n : Node := .list { quoted := true } [.list { depth := 1, quoted := true }
      [.number { depth := 2, quoted := true } (.uint 18446744073709551615)]]
    Token.EndsList r.tokens 2 4 ∧
      ∃ located, (r.readAt 0).1 = .ok located ∧ located.endIndex = 4 ∧ located.node = n := by
  intro r n
  have hnumber : Token.Denotes 2 ⟨"18446744073709551615", 2⟩
      (.number { depth := 2, quoted := true } (.uint 18446744073709551615)) :=
    .number (by decide) (by decide) (by decide)
  have hspells : Spells 0 (r.tokens.take 5) [n] :=
    .list (o := .quotedParen) (by decide) rfl rfl
      (.list (o := .bracket) (by decide) rfl rfl (.word hnumber .nil) .nil) .nil
  have hends : Token.EndsList r.tokens 2 4 := hspells.endsList rfl (by decide) _
  have hread := readAt_quoted_iff r rfl (.inl rfl) rfl
  obtain ⟨located, hlocated, hend⟩ := (hread.1 4).2 hends
  refine ⟨hends, located, hlocated, hend, ?_⟩
  have hnode := hread.2 located hlocated n
  rw [hend] at hnode
  exact (hnode.1 hspells).symm

end Reader

end ExprShell
