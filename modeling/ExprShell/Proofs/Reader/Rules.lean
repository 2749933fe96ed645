/-
What the rules for words and lists come to, one step at a time: from the readings of the parts to
that of the whole, and back.
-/
import ExprShell.Proofs.Reader.Agreement

namespace ExprShell.Reader

variable {c : Context} {depth : Nat} {t opening : Token} {o : Opener} {quoted first keywords : Bool}
  {m : Node} {ms ns : List Node} {ts after rest : List Token}

/-! ## Steps of a plan, taken back -/

theorem Runs.of_peek {atEnd : Plan} {next : Token → Plan} {r : Result}
    (h : Runs c (.peek atEnd next) (t :: ts) r) : Runs c (next t) (t :: ts) r := by
  cases h with
  | peek h => exact h

/-- What refuses the end of the input has found a token. -/
theorem Runs.exists_token {atEnd : Plan} {next : Token → Plan} {nodes : List Node}
    {rest : List Token} (h : Runs c (.peek atEnd next) ts (.ok (nodes, rest)))
    (hend : ∀ r, ¬ Runs c atEnd [] (.ok r)) :
    ∃ t us, ts = t :: us ∧ Runs c (next t) (t :: us) (.ok (nodes, rest)) := by
  cases ts with
  | nil =>
    cases h with
    | peekEnd h => exact absurd h (hend _)
  | cons t us => exact ⟨t, us, rfl, h.of_peek⟩

theorem Runs.of_shift {next : Plan} {r : Result} (h : Runs c (.shift next) (t :: ts) r) :
    Runs c next ts r := by
  cases h with
  | shift h => exact h

theorem Runs.of_just {goal : Goal} {nodes : List Node} {rest : List Token}
    (h : Runs c (.just goal depth) ts (.ok (nodes, rest))) :
    Runs c (goal.plan depth) ts (.ok (nodes, rest)) := by
  cases h with
  | readOk hread hgive =>
    cases hgive
    exact hread

theorem Runs.of_deeper {next : Plan} {nodes : List Node} {rest : List Token}
    (h : Runs c (.deeper opening depth next) ts (.ok (nodes, rest))) :
    depth < c.maxDepth ∧ Runs c next ts (.ok (nodes, rest)) := by
  cases h with
  | deeper hdepth h => exact ⟨hdepth, h⟩

theorem Runs.of_read {goal : Goal} {next : List Node → Nat → Plan} {nodes : List Node}
    {rest : List Token} (h : Runs c (.read goal depth next) ts (.ok (nodes, rest))) :
    ∃ ms left, Runs c (goal.plan depth) ts (.ok (ms, left)) ∧
      Runs c (next ms (ts.length - left.length)) left (.ok (nodes, rest)) := by
  cases h with
  | readOk hread hnext => exact ⟨_, _, hread, hnext⟩

/-- The line of the end of the input is told by failures only. -/
theorem Runs.anyLine {maxDepth line line' : Nat} {p : Plan} {r : Result}
    {found : List Node × List Token} (h : Runs ⟨maxDepth, line⟩ p ts r) (hr : r = .ok found) :
    Runs ⟨maxDepth, line'⟩ p ts r := by
  induction h generalizing found with
  | give => exact .give
  | refuse | refuseAtEnd | tooDeep | readError => cases hr
  | peekEnd _ ih => exact .peekEnd (ih hr)
  | peek _ ih => exact .peek (ih hr)
  | shift _ ih => exact .shift (ih hr)
  | deeper hdepth _ ih => exact .deeper hdepth (ih hr)
  | readOk _ _ ih ihnext => exact .readOk (ih rfl) (ihnext hr)

theorem single_eq_ok {bound : Nat} {outcome : Outcome Node bound} {nodes : List Node}
    {rest : List Token} (h : single outcome = .ok (nodes, rest)) : ∃ n, nodes = [n] := by
  cases outcome with
  | error f => cases h
  | ok p =>
    cases h
    exact ⟨p.value, rfl⟩

/-! ## Words -/

/-- What a word is read as. -/
theorem atom_cases (hshape : t.shape = .word) (h : atom depth t = .ok m) :
    (∃ x, t.isNumber = true ∧ Number.ofLiteral? t.text = some x ∧
      m = .number { depth := depth } x) ∨
    (t.isString = true ∧ m = .string { depth := depth } (unquoted t.text)) ∨
    (∃ b : Bool, t.text = (if b then "true" else "false") ∧ m = .boolean { depth := depth } b) ∨
    (t.isEscape = true ∧ m = .identifier { depth := depth, quoted := true }
      (String.ofList (t.text.toList.drop 1))) ∨
    (t.isName = true ∧ m = nameAt depth t.text) := by
  unfold atom at h
  split at h
  · next hnumber =>
    split at h
    · next x hx =>
      cases h
      exact .inl ⟨x, hnumber, hx, rfl⟩
    · cases h
  · next hnumber =>
    split at h
    · next hstring =>
      cases h
      exact .inr (.inl ⟨hstring, rfl⟩)
    · next hstring =>
      split at h
      · next htrue =>
        cases h
        exact .inr (.inr (.inl ⟨true, by simpa using htrue, rfl⟩))
      · next htrue =>
        split at h
        · next hfalse =>
          cases h
          exact .inr (.inr (.inl ⟨false, by simpa using hfalse, rfl⟩))
        · next hfalse =>
          split at h
          · next hescape =>
            cases h
            exact .inr (.inr (.inr (.inl ⟨hescape, rfl⟩)))
          · next hescape =>
            cases h
            refine .inr (.inr (.inr (.inr ⟨?_, rfl⟩)))
            simp_all [Token.isName]

/-! ## Openers -/

theorem ne_brace_of_code (ho : o = .paren ∨ o = .bracket) : o ≠ .brace := by
  obtain rfl | rfl := ho
  all_goals decide

theorem ne_brace_of_quoted (ho : o = .quotedParen ∨ o = .quotedBracket) : o ≠ .brace := by
  obtain rfl | rfl := ho
  all_goals decide

/-! ## Items -/

theorem runs_items_closed (hshape : t.shape = .closer o.closer) :
    Runs c ((Goal.items o opening quoted first).plan depth) (t :: rest) (.ok ([], rest)) := by
  refine .peek ?_
  rw [hshape]
  dsimp only
  rw [if_pos rfl]
  exact .shift .give

theorem items_closed_inv (hshape : t.shape = .closer o.closer)
    (h : Runs c ((Goal.items o opening quoted first).plan depth) (t :: rest) (.ok (ms, after))) :
    after = rest ∧ ms = [] := by
  cases h.unique (runs_items_closed hshape)
  exact ⟨rfl, rfl⟩

theorem runs_items_cons (hshape : ∀ k, t.shape ≠ .closer k)
    (hm : Runs c ((if quoted then Goal.dataElement else .element (!first)).plan depth) (t :: ts)
      (.ok ([m], after)))
    (hms : Runs c ((Goal.items o opening quoted false).plan depth) after (.ok (ms, rest))) :
    Runs c ((Goal.items o opening quoted first).plan depth) (t :: ts) (.ok (m :: ms, rest)) := by
  refine .peek ?_
  split
  · next k hk => exact absurd hk (hshape k)
  · exact .readOk hm (.readOk hms .give)

theorem items_cons_inv (hshape : ∀ k, t.shape ≠ .closer k)
    (h : Runs c ((Goal.items o opening quoted first).plan depth) (t :: ts) (.ok (ms, after))) :
    ∃ m others middle,
      Runs c ((if quoted then Goal.dataElement else .element (!first)).plan depth) (t :: ts)
        (.ok ([m], middle)) ∧
      Runs c ((Goal.items o opening quoted false).plan depth) middle (.ok (others, after)) ∧
      ms = m :: others := by
  have hplan := h.of_peek
  split at hplan
  · next k hk => exact absurd hk (hshape k)
  · obtain ⟨found, middle, hfirst, hplan⟩ := hplan.of_read
    obtain ⟨others, _, hothers, hgive⟩ := hplan.of_read
    cases hgive
    have hone : ∃ m, found = [m] := by
      cases quoted with
      | true => exact single_eq_ok (runs_iff.1 hfirst)
      | false => exact single_eq_ok (runs_iff.1 hfirst)
    obtain ⟨m, rfl⟩ := hone
    exact ⟨m, others, middle, hfirst, hothers, rfl⟩

/-! ## Code -/

/-- No arrow follows. -/
def NoArrow (ts : List Token) : Prop :=
  ∀ t rest, ts = t :: rest → t.text ≠ "=>"

theorem NoArrow.nil : NoArrow [] := by
  intro t rest h
  cases h

theorem NoArrow.cons (h : t.text ≠ "=>") : NoArrow (t :: rest) := by
  intro t' rest' heq
  cases heq
  exact h

/-- Arrows are names. -/
theorem text_ne_arrow (h : t.isName = false) : t.text ≠ "=>" := by
  intro harrow
  simp [Token.isName, Token.shape, Token.isString, Token.isNumber, Token.isEscape,
    Number.isLiteral, harrow] at h

theorem runs_word (hshape : t.shape = .word) (hkeyword : t.keyword? = none ∨ keywords = false)
    (hm : atom depth t = .ok m) :
    Runs c ((Goal.element keywords).plan depth) (t :: rest) (.ok ([m], rest)) := by
  have hword : Runs c (.word depth t id) (t :: rest) (.ok ([m], rest)) := by
    rw [Plan.word, hm]
    exact .shift .give
  refine .peek ?_
  rw [hshape]
  obtain hkeyword | rfl := hkeyword
  · rw [hkeyword]
    cases keywords with
    | _ => exact hword
  · exact hword

theorem element_word_inv (hshape : t.shape = .word)
    (hkeyword : t.keyword? = none ∨ keywords = false)
    (h : Runs c ((Goal.element keywords).plan depth) (t :: ts) (.ok (ms, rest))) :
    rest = ts ∧ ∃ m, atom depth t = .ok m ∧ ms = [m] := by
  have hplan := h.of_peek
  rw [hshape] at hplan
  have hword : Runs c (.word depth t id) (t :: ts) (.ok (ms, rest)) := by
    obtain hkeyword | rfl := hkeyword
    · rw [hkeyword] at hplan
      cases keywords with
      | _ => exact hplan
    · exact hplan
  have hatom := hword.of_shift
  cases hm : atom depth t with
  | error cause =>
    rw [hm] at hatom
    cases hatom
  | ok m =>
    rw [hm] at hatom
    cases hatom
    exact ⟨rfl, m, rfl, rfl⟩

theorem runs_opened (hshape : t.shape = .opener o) {r : Result}
    (h : Runs c (.opened depth t o) ts r) :
    Runs c ((Goal.element keywords).plan depth) (t :: ts) r := by
  refine .peek ?_
  rw [hshape]
  exact .shift h

theorem element_opener_inv (hshape : t.shape = .opener o) {r : Result}
    (h : Runs c ((Goal.element keywords).plan depth) (t :: ts) r) :
    Runs c (.opened depth t o) ts r := by
  have hplan := h.of_peek
  rw [hshape] at hplan
  exact hplan.of_shift

/-- A list is a call unless an arrow follows. -/
theorem runs_call (hdepth : depth < c.maxDepth)
    (hitems : Runs c ((Goal.items o t false true).plan (depth + 1)) ts (.ok (ms, rest)))
    (hcall : callItems ms = .ok ns) (hrest : NoArrow rest) :
    Runs c (.listExpression depth o t) ts (.ok ([callAt depth ns], rest)) := by
  refine .deeper hdepth (.readOk hitems ?_)
  have hgive : Runs c (.call depth t ms) rest (.ok ([callAt depth ns], rest)) := by
    rw [Plan.call, hcall]
    exact .give
  cases rest with
  | nil => exact .peekEnd hgive
  | cons arrow rest =>
    refine .peek ?_
    rw [if_neg (by simpa using hrest arrow rest rfl)]
    exact hgive

/-- A list is a function if an arrow and a body follow. -/
theorem runs_function {params : List String} {arrow : Token} (hdepth : depth < c.maxDepth)
    (hitems : Runs c ((Goal.items o t false true).plan (depth + 1)) ts (.ok (ms, arrow :: after)))
    (hparams : paramNames ms = .ok params) (harrow : arrow.text = "=>")
    (hbody : Runs c ((Goal.functionBody t).plan depth) after (.ok (ns, rest))) :
    Runs c (.listExpression depth o t) ts
      (.ok ([.function { depth := depth } params ns], rest)) := by
  refine .deeper hdepth (.readOk hitems (.peek ?_))
  rw [if_pos (by simpa using harrow)]
  refine .shift ?_
  rw [Plan.function, hparams]
  exact .readOk hbody .give

/-- A body that is one expression. -/
theorem runs_body (ht : t.shape ≠ .opener .brace) (hdepth : depth < c.maxDepth)
    (h : Runs c ((Goal.element true).plan (depth + 1)) (t :: ts) (.ok (ms, rest))) :
    Runs c ((Goal.functionBody opening).plan depth) (t :: ts) (.ok (ms, rest)) := by
  refine .peek ?_
  rw [if_neg ht]
  exact .deeper hdepth (.just h)

theorem Runs.of_call {items : List Node} (h : Runs c (.call depth t items) ts (.ok (ms, rest))) :
    rest = ts ∧ ∃ ns, callItems items = .ok ns ∧ ms = [callAt depth ns] := by
  unfold Plan.call at h
  cases hitems : callItems items with
  | error cause =>
    rw [hitems] at h
    cases h
  | ok ns =>
    rw [hitems] at h
    cases h
    exact ⟨rfl, ns, rfl, rfl⟩

theorem Runs.of_function {items : List Node}
    (h : Runs c (.function depth t items) ts (.ok (ms, rest))) :
    ∃ params ns, paramNames items = .ok params ∧
      Runs c ((Goal.functionBody t).plan depth) ts (.ok (ns, rest)) ∧
      ms = [.function { depth := depth } params ns] := by
  unfold Plan.function at h
  cases hparams : paramNames items with
  | error cause =>
    rw [hparams] at h
    cases h
  | ok params =>
    rw [hparams] at h
    obtain ⟨ns, left, hbody, hgive⟩ := h.of_read
    cases hgive
    exact ⟨params, ns, rfl, hbody, rfl⟩

/-- A list was a call that no arrow follows, or else a function. -/
theorem Runs.of_listExpression (h : Runs c (.listExpression depth o t) ts (.ok (ms, rest))) :
    depth < c.maxDepth ∧ ∃ items left,
      Runs c ((Goal.items o t false true).plan (depth + 1)) ts (.ok (items, left)) ∧
      ((NoArrow left ∧ rest = left ∧ ∃ ns, callItems items = .ok ns ∧ ms = [callAt depth ns]) ∨
        ∃ arrow body params ns, left = arrow :: body ∧ arrow.text = "=>" ∧
          paramNames items = .ok params ∧
          Runs c ((Goal.functionBody t).plan depth) body (.ok (ns, rest)) ∧
          ms = [.function { depth := depth } params ns]) := by
  obtain ⟨hdepth, h⟩ := h.of_deeper
  obtain ⟨items, left, hitems, h⟩ := h.of_read
  refine ⟨hdepth, items, left, hitems, ?_⟩
  cases left with
  | nil =>
    cases h with
    | peekEnd h => exact .inl ⟨.nil, h.of_call⟩
  | cons arrow body =>
    have h := h.of_peek
    by_cases harrow : arrow.text = "=>"
    · rw [if_pos (by simpa using harrow)] at h
      obtain ⟨params, ns, hfunction⟩ := h.of_shift.of_function
      exact .inr ⟨arrow, body, params, ns, rfl, harrow, hfunction⟩
    · rw [if_neg (by simpa using harrow)] at h
      exact .inl ⟨.cons harrow, h.of_call⟩

/-- What does not start with a name is a statement as it is an element. -/
theorem statement_iff_element (ht : t.isName = false) :
    Runs c (Goal.statement.plan depth) (t :: ts) (.ok (ms, rest)) ↔
      Runs c ((Goal.element true).plan depth) (t :: ts) (.ok (ms, rest)) := by
  constructor
  · intro h
    have hplan := h.of_peek
    rw [ht] at hplan
    exact hplan.of_just
  · intro h
    exact runs_statement ht h

/-! ## Bindings -/

section Bindings

variable {keyword eq : Token} {isGlobal single : Bool} {name : String} {value : List Node}

theorem runs_letEquals (heq : eq.text = "=") (hdepth : depth < c.maxDepth)
    (hvalue : Runs c ((Goal.letValue keyword).plan (depth + 1)) ts (.ok (value, after)))
    (hend : Runs c (.letEnd depth keyword (ts.length - after.length == 1)
      (callAt depth (Plan.boundItems (depth + 1) isGlobal name value))) after (.ok (ms, rest))) :
    Runs c (.letEquals depth keyword isGlobal name) (eq :: ts) (.ok (ms, rest)) := by
  refine .peek ?_
  rw [if_pos (by simpa using heq)]
  exact .shift (.deeper hdepth (.readOk hvalue hend))

theorem Runs.of_letEquals
    (h : Runs c (.letEquals depth keyword isGlobal name) ts (.ok (ms, rest))) :
    ∃ eq us value after, ts = eq :: us ∧ eq.text = "=" ∧ depth < c.maxDepth ∧
      Runs c ((Goal.letValue keyword).plan (depth + 1)) us (.ok (value, after)) ∧
      Runs c (.letEnd depth keyword (us.length - after.length == 1)
        (callAt depth (Plan.boundItems (depth + 1) isGlobal name value))) after
        (.ok (ms, rest)) := by
  cases ts with
  | nil =>
    cases h with
    | peekEnd h => cases h
  | cons eq us =>
    have h := h.of_peek
    by_cases heq : eq.text = "="
    · rw [if_pos (by simpa using heq)] at h
      obtain ⟨hdepth, h⟩ := h.of_shift.of_deeper
      obtain ⟨value, after, hvalue, hend⟩ := h.of_read
      exact ⟨eq, us, value, after, rfl, heq, hdepth, hvalue, hend⟩
    · rw [if_neg (by simpa using heq)] at h
      cases h

/-- A binding ends with a separator, or where it is, which for a single token is not the end of the
input. -/
theorem Runs.of_letEnd (h : Runs c (.letEnd depth keyword single m) ts (.ok (ms, rest))) :
    ms = [m] ∧
      ((∃ t, t.shape = .separator ∧ ts = t :: rest) ∨ rest = ts ∧ (ts = [] → single = false)) := by
  cases ts with
  | nil =>
    cases h with
    | peekEnd h =>
      cases single with
      | true => cases h
      | false =>
        cases h
        exact ⟨rfl, .inr ⟨rfl, fun _ => rfl⟩⟩
  | cons t ts =>
    have h := h.of_peek
    by_cases ht : t.shape = .separator
    · rw [if_pos ht] at h
      cases h.of_shift
      exact ⟨rfl, .inl ⟨t, ht, rfl⟩⟩
    · rw [if_neg ht] at h
      split at h
      · cases h
      · cases h
        exact ⟨rfl, .inr ⟨rfl, fun hnil => by cases hnil⟩⟩

/-- A name is followed by something else than a separator. -/
def NoSeparator (t : Token) (ts : List Token) : Prop :=
  t.isName = true → ∃ next rest, ts = next :: rest ∧ next.shape ≠ .separator

/-- The value of a binding is a statement, unless it is a name with a separator or nothing behind
it. -/
theorem letValue_iff_statement {r : List Node × List Token}
    (h : NoSeparator t ts) :
    Runs c ((Goal.letValue keyword).plan depth) (t :: ts) (.ok r) ↔
      Runs c (Goal.statement.plan depth) (t :: ts) (.ok r) := by
  cases hname : t.isName with
  | false =>
    constructor
    · intro hvalue
      have hvalue := hvalue.of_peek
      rw [if_neg (by simp [hname])] at hvalue
      exact hvalue.of_just
    · intro hstatement
      refine .peek ?_
      rw [if_neg (by simp [hname])]
      exact .just hstatement
  | true =>
    obtain ⟨next, rest, rfl, hnext⟩ := h hname
    constructor
    · intro hvalue
      have hvalue := hvalue.of_peek
      rw [if_pos hname] at hvalue
      have hvalue := hvalue.of_shift.of_peek
      rw [if_neg hnext] at hvalue
      refine .peek ?_
      rw [if_pos hname]
      exact .shift hvalue
    · intro hstatement
      have hstatement := hstatement.of_peek
      rw [if_pos hname] at hstatement
      refine .peek ?_
      rw [if_pos hname]
      refine .shift (.peek ?_)
      rw [if_neg hnext]
      exact hstatement.of_shift

theorem runs_letEnd_separator (ht : t.shape = .separator) :
    Runs c (.letEnd depth keyword single m) (t :: rest) (.ok ([m], rest)) := by
  refine .peek ?_
  rw [if_pos ht]
  exact .shift .give

end Bindings

/-! ## Data -/

theorem runs_dataWord (hshape : t.shape = .word) (hm : atom depth t = .ok m) :
    Runs c (Goal.dataElement.plan depth) (t :: rest) (.ok ([m.quote], rest)) := by
  refine .peek ?_
  rw [hshape, Plan.word, hm]
  exact .shift .give

theorem dataElement_word_inv (hshape : t.shape = .word)
    (h : Runs c (Goal.dataElement.plan depth) (t :: rest) (.ok ([m], after))) :
    after = rest ∧ ∃ n, atom depth t = .ok n ∧ m = n.quote := by
  have h := h.of_peek
  rw [hshape] at h
  have h := h.of_shift
  cases hatom : atom depth t with
  | error cause =>
    rw [hatom] at h
    cases h
  | ok n =>
    rw [hatom] at h
    cases h
    exact ⟨rfl, n, rfl, rfl⟩

theorem runs_dataOpener (ho : o ≠ .brace) (hshape : t.shape = .opener o) {r : Result} :
    Runs c (Goal.dataElement.plan depth) (t :: ts) r ↔ Runs c (.dataList depth o t) ts r := by
  have hplan : Runs c (Goal.dataElement.plan depth) (t :: ts) r ↔
      Runs c (.shift (.dataList depth o t)) (t :: ts) r := by
    constructor
    · intro h
      have h := h.of_peek
      rw [hshape] at h
      cases o with
      | brace => exact absurd rfl ho
      | _ => exact h
    · intro h
      refine .peek ?_
      rw [hshape]
      cases o with
      | brace => exact absurd rfl ho
      | _ => exact h
  exact hplan.trans ⟨Runs.of_shift, .shift⟩

theorem runs_dataList (ho : o ≠ .brace) (hshape : t.shape = .opener o)
    (hdepth : depth < c.maxDepth)
    (hms : Runs c ((Goal.items o t true true).plan (depth + 1)) ts (.ok (ms, rest))) :
    Runs c (Goal.dataElement.plan depth) (t :: ts)
      (.ok ([.list { depth := depth, quoted := true } ms], rest)) :=
  (runs_dataOpener ho hshape).2 (.deeper hdepth (.readOk hms .give))

theorem dataElement_list_inv (ho : o ≠ .brace) (hshape : t.shape = .opener o)
    (h : Runs c (Goal.dataElement.plan depth) (t :: ts) (.ok ([m], after))) :
    depth < c.maxDepth ∧
      ∃ ms, Runs c ((Goal.items o t true true).plan (depth + 1)) ts (.ok (ms, after)) ∧
        m = .list { depth := depth, quoted := true } ms := by
  cases (runs_dataOpener ho hshape).1 h with
  | deeper hdepth hread =>
    cases hread with
    | readOk hitems hgive =>
      cases hgive
      exact ⟨hdepth, _, hitems, rfl⟩

end ExprShell.Reader
