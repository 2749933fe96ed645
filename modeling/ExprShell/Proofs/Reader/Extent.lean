/-
What a reading takes (`taking_kept`). The tokens that something is read from are properly nested;
items and statements also take the closer that they end with.

So between an opener and its closer the reader is on its own: what it finds there ends with the
closer and is the same whatever follows (`Runs.within`).
-/
import ExprShell.Proofs.Reader.Completion
import ExprShell.Proofs.Reader.Progress
import ExprShell.Proofs.Reader.Rules

namespace ExprShell.Reader

open Token (Nested)

/-! ## Promises -/

/-- A nested sequence and then a closer of this kind. -/
def ClosedBy (k : Closer) (used : List Token) : Prop :=
  ∃ inner closing, used = inner ++ [closing] ∧ Nested inner ∧ closing.shape = .closer k

/-- The closer that a goal reads to the end. -/
def Goal.closer? : Goal → Option Closer
  | .items o _ _ _ => some o.closer
  | .statements _ => some .brace
  | _ => none

/-- What the tokens that are read for a goal look like. -/
def Goal.Uses (goal : Goal) : List Token → Prop :=
  match goal.closer? with
  | some k => ClosedBy k
  | none => Nested

theorem Goal.uses_of_closer {goal : Goal} {k : Closer} (h : goal.closer? = some k) :
    goal.Uses = ClosedBy k := by
  rw [Goal.Uses, h]

theorem Goal.uses_of_none {goal : Goal} (h : goal.closer? = none) : goal.Uses = Nested := by
  rw [Goal.Uses, h]

/-- No closer stands where quoted data is read. -/
def Goal.Starts (ts : List Token) : Goal → Prop
  | .dataElement => ∀ t rest, ts = t :: rest → t.isCloser = false
  | _ => True

def taking : Contract where
  pre goal _ ts := goal.Starts ts
  post goal _ ts r := ∀ nodes rest, r = .ok (nodes, rest) →
    ∃ used, ts = used ++ rest ∧ goal.Uses used

/-- On these tokens, with those before them, a plan takes tokens that look like this. -/
def Plan.Takes (c : Context) (U : List Token → Prop) (before : List Token) (p : Plan)
    (ts : List Token) : Prop :=
  p.Meets c taking (fun r => ∀ nodes rest, r = .ok (nodes, rest) →
    ∃ used, before ++ ts = used ++ rest ∧ U used) ts

theorem Goal.uses_append (goal : Goal) {before used : List Token} (h : Nested before)
    (hused : goal.Uses used) : goal.Uses (before ++ used) := by
  cases hgoal : goal.closer? with
  | some k =>
    rw [Goal.uses_of_closer hgoal] at hused ⊢
    obtain ⟨inner, closing, rfl, hinner, hclosing⟩ := hused
    exact ⟨before ++ inner, closing, (List.append_assoc _ _ _).symm, h.append hinner, hclosing⟩
  | none =>
    rw [Goal.uses_of_none hgoal] at hused ⊢
    exact h.append hused

theorem nested_snoc {before : List Token} {t : Token} (h : Nested before) (ht : t.IsNeutral) :
    Nested (before ++ [t]) :=
  h.append (.neutral ht .nil)

/-- An opener and what it opens, up to the closer. -/
theorem nested_closed {before used : List Token} {opening : Token} {o : Opener}
    (h : Nested before) (hopening : opening.shape = .opener o) (hused : ClosedBy o.closer used) :
    Nested (before ++ [opening] ++ used) := by
  obtain ⟨inner, closing, rfl, hinner, hclosing⟩ := hused
  rw [List.append_assoc]
  exact h.append (.group ⟨o, hopening, hclosing⟩ hinner .nil)

/-! ## Plans -/

namespace Plan.Takes

variable {c : Context} {depth : Nat} {U : List Token → Prop} {before ts : List Token} {t : Token}
  {opening keyword : Token} {o : Opener}

theorem give {nodes : List Node} (h : U before) : Takes c U before (.give nodes) ts := by
  intro nodes' rest hr
  cases hr
  exact ⟨before, rfl, h⟩

theorem refuse {line : Nat} {cause : SyntaxCause} :
    Takes c U before (.refuse depth line cause) ts := by
  intro nodes rest hr
  cases hr

theorem refuseAtEnd {cause : SyntaxCause} : Takes c U before (.refuseAtEnd depth cause) ts := by
  intro hts nodes rest hr
  cases hr

theorem peek {atEnd : Plan} {next : Token → Plan} (hend : atEnd.Takes c U before [])
    (hnext : ∀ t rest, ts = t :: rest → (next t).Takes c U before (t :: rest)) :
    Takes c U before (.peek atEnd next) ts := by
  constructor
  · intro hts
    subst hts
    exact hend
  · intro t rest hts
    subst hts
    exact hnext t rest rfl

theorem shift {next : Plan} (hnext : next.Takes c U (before ++ [t]) ts) :
    Takes c U before (.shift next) (t :: ts) := by
  intro t' rest hts
  cases hts
  unfold Takes at hnext
  rw [List.append_assoc] at hnext
  exact hnext

theorem deeper {next : Plan} (hnext : next.Takes c U before ts) :
    Takes c U before (.deeper opening depth next) ts := by
  refine ⟨fun _ => hnext, fun _ nodes rest hr => ?_⟩
  cases hr

theorem read {goal : Goal} {next : List Node → Nat → Plan} (hstarts : goal.Starts ts)
    (hnext : ∀ used nodes count rest, goal.Uses used →
      (next nodes count).Takes c U (before ++ used) rest) :
    Takes c U before (.read goal depth next) ts := by
  refine ⟨hstarts, fun f _ nodes rest hr => ?_, fun nodes rest hpost => ?_⟩
  · cases hr
  · obtain ⟨used, rfl, hused⟩ := hpost nodes rest rfl
    have htakes := hnext used nodes ((used ++ rest).length - rest.length) rest hused
    unfold Takes at htakes
    rw [List.append_assoc] at htakes
    exact htakes

theorem just {goal : Goal} (hb : Nested before) (hgoal : goal.closer? = none)
    (hstarts : goal.Starts ts) : Takes c Nested before (.just goal depth) ts := by
  refine read hstarts fun used _ _ _ hused => give ?_
  rw [Goal.uses_of_none hgoal] at hused
  exact hb.append hused

theorem sequence {first others : Goal} (hfirst : first.closer? = none) (hstarts : first.Starts ts)
    (hothers : ∀ rest, others.Starts rest) :
    Takes c others.Uses [] (.sequence first others depth) ts := by
  refine read hstarts fun used _ _ rest hused => read (hothers rest) fun more _ _ _ hmore => give ?_
  rw [Goal.uses_of_none hfirst] at hused
  exact others.uses_append hused hmore

/-! ### Lists -/

theorem word {change : Node → Node} (hb : Nested before) (ht : t.shape = .word) :
    Takes c Nested before (.word depth t change) (t :: ts) := by
  refine shift ?_
  cases atom depth t with
  | ok n => exact give (nested_snoc hb (.inl ht))
  | error cause => exact refuse

theorem call {items : List Node} (hb : Nested before) :
    Takes c Nested before (.call depth opening items) ts := by
  unfold Plan.call
  cases callItems items with
  | ok items => exact give hb
  | error cause => exact refuse

theorem delimited {quoted : Bool} {next : List Node → Plan} (hb : Nested before)
    (ho : opening.shape = .opener o)
    (hnext : ∀ items before rest, Nested before → (next items).Takes c Nested before rest) :
    Takes c Nested (before ++ [opening]) (.delimited depth o opening quoted next) ts :=
  deeper (read trivial fun _ items _ rest hused => hnext items _ rest (nested_closed hb ho hused))

theorem listExpression (hb : Nested before) (ho : opening.shape = .opener o) :
    Takes c Nested (before ++ [opening]) (.listExpression depth o opening) ts := by
  refine delimited hb ho fun items before rest hb => peek (call hb) fun arrow rest _ => ?_
  by_cases harrow : (arrow.text == "=>") = true
  · rw [if_pos harrow]
    have hneutral : arrow.IsNeutral := .inl (by simp [Token.shape, beq_iff_eq.1 harrow])
    refine shift ?_
    unfold Plan.function
    cases paramNames items with
    | error cause => exact refuse
    | ok params =>
      refine read trivial fun used _ _ _ hused => give ?_
      exact (nested_snoc hb hneutral).append hused
  · rw [if_neg harrow]
    exact call hb

theorem block {next : List Node → Plan} (hb : Nested before) (ho : opening.shape = .opener .brace)
    (hnext : ∀ body before rest, Nested before → (next body).Takes c Nested before rest) :
    Takes c Nested (before ++ [opening]) (.block depth opening next) ts :=
  deeper (read trivial fun _ body _ rest hused => hnext body _ rest (nested_closed hb ho hused))

theorem opened (hb : Nested before) (ho : opening.shape = .opener o) :
    Takes c Nested (before ++ [opening]) (.opened depth opening o) ts := by
  cases o with
  | paren | bracket => exact listExpression hb ho
  | quotedParen | quotedBracket => exact delimited hb ho fun _ _ _ hb => give hb
  | brace => exact block hb ho fun _ _ _ hb => give hb

/-! ### Names and bindings -/

theorem named (hb : Nested before) : Takes c Nested before (.named depth t) ts := by
  unfold Plan.named
  cases t.keyword? with
  | some k => exact just hb rfl trivial
  | none =>
    refine peek (give hb) fun next rest _ => ?_
    split
    · exact give hb
    · exact just hb rfl trivial

theorem letEnd {single : Bool} {node : Node} (hb : Nested before) :
    Takes c Nested before (.letEnd depth keyword single node) ts := by
  refine peek ?_ fun t rest _ => ?_
  · split
    · exact refuse
    · exact give hb
  · by_cases ht : t.shape = .separator
    · rw [if_pos ht]
      exact shift (give (nested_snoc hb (.inr ht)))
    · rw [if_neg ht]
      split
      · exact refuse
      · exact give hb

theorem letEquals {isGlobal : Bool} {name : String} (hb : Nested before) :
    Takes c Nested before (.letEquals depth keyword isGlobal name) ts := by
  refine peek refuseAtEnd fun eq rest _ => ?_
  by_cases heq : (eq.text == "=") = true
  · rw [if_pos heq]
    have hneutral : eq.IsNeutral := .inl (by simp [Token.shape, beq_iff_eq.1 heq])
    refine shift (deeper (read trivial fun used _ _ _ hused => ?_))
    exact letEnd ((nested_snoc hb hneutral).append hused)
  · rw [if_neg heq]
    exact refuse

theorem letName {isGlobal : Bool} (hb : Nested before) :
    Takes c Nested before (.letName depth keyword isGlobal) ts := by
  refine peek refuseAtEnd fun name rest _ => ?_
  by_cases hname : name.isName = true
  · rw [if_pos hname]
    exact shift (letEquals (nested_snoc hb (.inl (Token.shape_of_isName hname))))
  · rw [if_neg hname]
    exact refuse

theorem letForm (hb : Nested before) : Takes c Nested before (.letForm depth keyword) ts := by
  refine peek refuseAtEnd fun t rest _ => ?_
  by_cases hglobal : (t.text == "global") = true
  · rw [if_pos hglobal]
    have hneutral : t.IsNeutral := .inl (by simp [Token.shape, beq_iff_eq.1 hglobal])
    have hb := nested_snoc hb hneutral
    refine shift (peek refuseAtEnd fun next rest _ => ?_)
    split
    · exact letEquals hb
    · exact letName hb
  · rw [if_neg hglobal]
    exact letName hb

/-! ### Branches -/

theorem branches {next : List Node → Plan} (hb : Nested before)
    (hnext : ∀ bs before rest, Nested before → (next bs).Takes c Nested before rest) :
    Takes c Nested before (.branches depth keyword next) ts := by
  refine deeper (read trivial fun used bs _ rest hused => ?_)
  split
  · exact refuse
  · exact hnext bs _ rest (hb.append hused)

theorem matchForm (hb : Nested before) : Takes c Nested before (.matchForm depth keyword) ts := by
  refine deeper (peek refuse fun _ _ _ => read trivial fun used _ _ _ hused => ?_)
  exact branches (hb.append hused) fun _ _ _ hb => give hb

theorem branch (hb : Nested before) : Takes c Nested before (.branch depth keyword) ts := by
  refine deeper (read trivial fun used _ _ _ hused => peek refuseAtEnd fun arrow rest _ => ?_)
  by_cases harrow : (arrow.text == "=>") = true
  · rw [if_pos harrow]
    have hneutral : arrow.IsNeutral := .inl (by simp [Token.shape, beq_iff_eq.1 harrow])
    have hb := nested_snoc (hb.append hused) hneutral
    refine shift (peek refuse fun _ _ _ => ?_)
    refine read trivial fun body _ _ _ hbody => read trivial fun bs _ _ _ hbs => give ?_
    exact (hb.append hbody).append hbs
  · rw [if_neg harrow]
    exact refuse

end Plan.Takes

/-! ## Rules -/

theorem taking_kept (c : Context) : taking.Kept c := by
  intro goal depth ts hstarts
  show (goal.plan depth).Takes c goal.Uses [] ts
  cases goal with
  | program =>
    refine .peek (.give .nil) fun t rest _ => ?_
    split
    · next ht => exact .shift (.just (nested_snoc .nil (.inr ht)) rfl trivial)
    · exact .sequence rfl trivial fun _ => trivial
  | statement =>
    refine .peek .refuseAtEnd fun t rest _ => ?_
    split
    · next hname => exact .shift (.named (nested_snoc .nil (.inl (Token.shape_of_isName hname))))
    · exact .just .nil rfl trivial
  | element keywords =>
    refine .peek .refuseAtEnd fun t rest _ => ?_
    cases hshape : t.shape with
    | opener o => exact .shift (.opened .nil hshape)
    | closer _ | separator => exact .refuse
    | word =>
      dsimp only
      split
      · exact .shift (.just (nested_snoc .nil (.inl hshape)) rfl trivial)
      · exact .word .nil hshape
  | keywordForm k keyword =>
    cases k with
    | letWord => exact .letForm .nil
    | matchWord => exact .matchForm .nil
    | condWord => exact .branches .nil fun _ _ _ hb => .give hb
  | items o opening quoted first =>
    refine .peek .refuse fun t rest _ => ?_
    cases hshape : t.shape with
    | closer k =>
      dsimp only
      split
      · next hk => exact .shift (.give ⟨[], t, rfl, .nil, hk ▸ hshape⟩)
      · exact .refuse
    | opener _ | separator | word =>
      cases quoted with
      | false => exact .sequence rfl trivial fun _ => trivial
      | true =>
        refine .sequence rfl ?_ fun _ => trivial
        intro t' rest' heq
        cases heq
        simp [Token.isCloser, hshape]
  | dataElement =>
    refine .peek .refuseAtEnd fun t rest hts => ?_
    cases hshape : t.shape with
    | opener o =>
      cases o with
      | brace => exact .refuse
      | _ => exact .shift (.delimited .nil hshape fun _ _ _ hb => .give hb)
    | separator => exact .refuse
    | closer k =>
      have hcloser := hstarts t rest hts
      simp [Token.isCloser, hshape] at hcloser
    | word => exact .word .nil hshape
  | functionBody opening =>
    refine .peek .refuse fun t rest _ => ?_
    split
    · next hbrace => exact .shift (.block .nil hbrace fun _ _ _ hb => .give hb)
    · exact .deeper (.just .nil rfl trivial)
  | statements opening =>
    refine .peek .refuse fun t rest _ => ?_
    cases hshape : t.shape with
    | separator =>
      refine .shift (.read trivial fun used _ _ _ hused => .give ?_)
      exact (Goal.statements opening).uses_append (nested_snoc .nil (.inr hshape)) hused
    | closer k =>
      cases k with
      | brace => exact .shift (.give ⟨[], t, rfl, .nil, hshape⟩)
      | _ => exact .sequence rfl trivial fun _ => trivial
    | _ => exact .sequence rfl trivial fun _ => trivial
  | bareCall head => exact .deeper (.read trivial fun _ _ _ _ hused => .give hused)
  | bareArgs head =>
    refine .peek .refuse fun t rest _ => ?_
    cases hshape : t.shape with
    | separator => exact .shift (.give (nested_snoc .nil (.inr hshape)))
    | closer _ => exact .refuse
    | _ => exact .sequence rfl trivial fun _ => trivial
  | letValue keyword =>
    refine .peek .refuse fun t rest _ => ?_
    split
    · next hname =>
      have hb := nested_snoc .nil (.inl (Token.shape_of_isName hname))
      refine .shift (.peek (.named hb) fun next rest _ => ?_)
      split
      · exact .give hb
      · exact .named hb
    · exact .just .nil rfl trivial
  | branchList keyword =>
    refine .peek .refuse fun t rest _ => ?_
    split
    · next ht => exact .shift (.give (nested_snoc .nil (.inr ht)))
    split
    · next hbar =>
      have hneutral : t.IsNeutral := .inl (by simp [Token.shape, beq_iff_eq.1 hbar])
      exact .shift (.branch (nested_snoc .nil hneutral))
    split
    · exact .give .nil
    · exact .refuse
  | pattern =>
    refine .peek .refuseAtEnd fun t rest _ => ?_
    cases hshape : t.shape with
    | opener o =>
      cases o with
      | paren | bracket => exact .shift (.delimited .nil hshape fun _ _ _ hb => .call hb)
      | _ => exact .just .nil rfl trivial
    | _ => exact .just .nil rfl trivial

theorem Runs.taken {c : Context} {goal : Goal} {depth : Nat} {nodes : List Node}
    {ts rest : List Token} (h : Runs c (goal.plan depth) ts (.ok (nodes, rest)))
    (hstarts : goal.Starts ts) : ∃ used, ts = used ++ rest ∧ goal.Uses used :=
  h.post (taking_kept c) hstarts nodes rest rfl

theorem Runs.takenWithCloser {c : Context} {goal : Goal} {depth : Nat} {nodes : List Node}
    {ts rest : List Token} {k : Closer} (h : Runs c (goal.plan depth) ts (.ok (nodes, rest)))
    (hcloser : goal.closer? = some k) : ∃ used, ts = used ++ rest ∧ ClosedBy k used := by
  have hstarts : goal.Starts ts := by
    cases goal with
    | dataElement => cases hcloser
    | _ => trivial
  obtain ⟨used, hts, hused⟩ := h.taken hstarts
  rw [Goal.uses_of_closer hcloser] at hused
  exact ⟨used, hts, hused⟩

/-! ## Tokens that are not looked at -/

section Within

variable {maxDepth line line' depth : Nat} {nodes : List Node} {ts more rest : List Token}
  {opening closing : Token} {o : Opener} {quoted first : Bool}

/-- Of a plan that has given nodes before the end of the input, or without a look at it, more tokens
change nothing. -/
theorem Runs.extend_ok {p : Plan} {r : Result} (h : Runs ⟨maxDepth, line⟩ p ts r)
    (hr : r = .ok (nodes, rest)) {loose : Bool} (hp : p.Extends loose) (more : List Token) :
    Runs ⟨maxDepth, line'⟩ p (ts ++ more) (.ok (nodes, rest ++ more)) ∨
      loose = true ∧ rest = [] := by
  induction h generalizing loose nodes rest with
  | give =>
    cases hr
    exact .inl .give
  | refuse | refuseAtEnd | tooDeep | readError => cases hr
  | @peekEnd atEnd next r hend ih =>
    rcases hp.1 with hshort | hfails
    · have hcut := hend.cutShort rfl hshort
      rw [hr] at hcut
      exact .inr hcut
    · obtain ⟨f, hf⟩ := hfails.1.error hend
      rw [hr] at hf
      cases hf
  | peek _ ih =>
    rcases ih hr (hp.2 _) with h | h
    · exact .inl (.peek h)
    · exact .inr h
  | shift _ ih =>
    rcases ih hr hp with h | h
    · exact .inl (.shift h)
    · exact .inr h
  | deeper hdepth _ ih =>
    rcases ih hr hp with h | h
    · exact .inl (.deeper hdepth h)
    · exact .inr h
  | @readOk goal depth next ms ts left r hread hnext ih ihnext =>
    rcases ih rfl (goal.extends_plan depth) with hsame | ⟨hloose, rfl⟩
    · have hlength : left.length ≤ ts.length := hread.rest_suffix.length_le
      have hcount : (ts ++ more).length - (left ++ more).length = ts.length - left.length := by
        simp only [List.length_append]
        omega
      rcases ihnext hr (hp ms _).1 with h | h
      · exact .inl (.readOk hsame (hcount ▸ h))
      · exact .inr h
    · have hcut := hnext.cutShort rfl ((hp ms _).2 hloose)
      rw [hr] at hcut
      exact .inr hcut

theorem Runs.extend_firm {p : Plan} (h : Runs ⟨maxDepth, line⟩ p ts (.ok (nodes, rest)))
    (hp : p.Extends false) (more : List Token) :
    Runs ⟨maxDepth, line'⟩ p (ts ++ more) (.ok (nodes, rest ++ more)) := by
  rcases h.extend_ok rfl hp more with hmore | hloose
  · exact hmore
  · cases hloose.1

/-- What leaves a token before some others has its first token before them too. -/
theorem Runs.starts_before {c : Context} {p : Plan} {t : Token} {us : List Token}
    (h : Runs c p (t :: us) (.ok (nodes, rest ++ more))) (hus : t :: us = ts ++ more)
    (hrest : rest ≠ []) : ∃ ts', ts = t :: ts' ∧ us = ts' ++ more := by
  cases ts with
  | nil =>
    have hlength : (rest ++ more).length ≤ (t :: us).length := h.rest_suffix.length_le
    have hpositive := List.length_pos_iff.2 hrest
    rw [hus, List.nil_append, List.length_append] at hlength
    omega
  | cons t' ts' =>
    cases hus
    exact ⟨ts', rfl, rfl⟩

/-- A run that leaves a token does without the tokens after it. -/
theorem Runs.cut {p : Plan} {us : List Token} {r : Result} (h : Runs ⟨maxDepth, line⟩ p us r)
    (hr : r = .ok (nodes, rest ++ more)) (hus : us = ts ++ more) (hrest : rest ≠ []) :
    Runs ⟨maxDepth, line'⟩ p ts (.ok (nodes, rest)) := by
  induction h generalizing nodes ts rest with
  | give =>
    cases hr
    cases List.append_cancel_right hus
    exact .give
  | refuse | refuseAtEnd | tooDeep | readError => cases hr
  | peekEnd h =>
    rw [hr] at h
    have hnil : rest ++ more = [] := List.suffix_nil.1 h.rest_suffix
    exact absurd (List.append_eq_nil_iff.1 hnil).1 hrest
  | peek h ih =>
    subst hr
    obtain ⟨ts', rfl, rfl⟩ := h.starts_before hus hrest
    exact .peek (ih rfl rfl hrest)
  | shift h ih =>
    subst hr
    obtain ⟨ts', rfl, rfl⟩ := h.shift.starts_before hus hrest
    exact .shift (ih rfl rfl hrest)
  | deeper hdepth _ ih => exact .deeper hdepth (ih hr hus hrest)
  | @readOk goal depth next ms us left r _ hnext ih ihnext =>
    subst hr hus
    obtain ⟨between, hbetween⟩ := hnext.rest_suffix
    have hleft : left = (between ++ rest) ++ more := by
      rw [List.append_assoc]
      exact hbetween.symm
    subst hleft
    have hnonempty : between ++ rest ≠ [] := by
      intro hnil
      exact hrest (List.append_eq_nil_iff.1 hnil).2
    have hcount : (ts ++ more).length - (between ++ rest ++ more).length =
        ts.length - (between ++ rest).length := by
      simp only [List.length_append]
      omega
    rw [hcount] at ihnext
    exact .readOk (ih rfl rfl hnonempty) (ihnext rfl rfl hrest)

theorem ClosedBy.ne_nil {k : Closer} (h : ClosedBy k ts) : ts ≠ [] := by
  obtain ⟨inner, closing, rfl, -⟩ := h
  exact List.append_ne_nil_of_right_ne_nil _ (List.cons_ne_nil _ _)

/-- Of a sequence that ends with a closer, what comes first leaves at least the closer. -/
theorem Runs.sequence_cut {goal others : Goal} {k : Closer} (hcloser : others.closer? = some k)
    (h : Runs ⟨maxDepth, line⟩ (.sequence goal others depth) (ts ++ more) (.ok (nodes, more)))
    (hshorter : ∀ ms left, Runs ⟨maxDepth, line⟩ (goal.plan depth) (ts ++ more) (.ok (ms, left)) →
      left.length < (ts ++ more).length)
    (ih : ∀ us ns, us.length < ts.length →
      Runs ⟨maxDepth, line⟩ (others.plan depth) (us ++ more) (.ok (ns, more)) →
      Runs ⟨maxDepth, line'⟩ (others.plan depth) us (.ok (ns, []))) :
    Runs ⟨maxDepth, line'⟩ (.sequence goal others depth) ts (.ok (nodes, [])) := by
  obtain ⟨ms, left, hfirst, h⟩ := h.of_read
  obtain ⟨ns, after, hothers, hgive⟩ := h.of_read
  cases hgive
  obtain ⟨used, rfl, hused⟩ := hothers.takenWithCloser hcloser
  have hlength := hshorter ms _ hfirst
  rw [List.length_append, List.length_append] at hlength
  have hcut : Runs ⟨maxDepth, line'⟩ _ _ _ := hfirst.cut rfl rfl hused.ne_nil
  exact .readOk hcut (.readOk (ih used ns (by omega) hothers) .give)

/-- Items end with their closer and do not look further. -/
theorem Runs.items_cut
    (h : Runs ⟨maxDepth, line⟩ ((Goal.items o opening quoted first).plan depth) (ts ++ more)
      (.ok (nodes, more))) :
    Runs ⟨maxDepth, line'⟩ ((Goal.items o opening quoted first).plan depth) ts
      (.ok (nodes, [])) := by
  induction hlength : ts.length using Nat.strongRecOn generalizing ts first nodes with
  | ind bound ih =>
    subst hlength
    obtain ⟨used, hused, hcloses⟩ := h.takenWithCloser rfl
    cases List.append_cancel_right hused
    obtain ⟨t, ts, rfl⟩ := List.exists_cons_of_ne_nil hcloses.ne_nil
    cases hshape : t.shape with
    | closer k =>
      by_cases hk : k = o.closer
      · subst hk
        obtain ⟨hmore, rfl⟩ := items_closed_inv hshape h
        cases List.self_eq_append_left.1 hmore
        exact runs_items_closed hshape
      · have hplan := h.of_peek
        rw [hshape] at hplan
        dsimp only at hplan
        rw [if_neg hk] at hplan
        cases hplan
    | opener _ | separator | word =>
      have hplan := h.of_peek
      rw [hshape] at hplan
      refine .peek ?_
      rw [hshape]
      refine .sequence_cut rfl hplan ?_ fun us ns hus h => ih _ hus h rfl
      intro ms left hfirst
      cases quoted with
      | true => exact single_shorter (runs_iff.1 hfirst)
      | false => exact single_shorter (runs_iff.1 hfirst)

theorem Runs.statements_cut
    (h : Runs ⟨maxDepth, line⟩ ((Goal.statements opening).plan depth) (ts ++ more)
      (.ok (nodes, more))) :
    Runs ⟨maxDepth, line'⟩ ((Goal.statements opening).plan depth) ts (.ok (nodes, [])) := by
  induction hlength : ts.length using Nat.strongRecOn generalizing ts nodes with
  | ind bound ih =>
    subst hlength
    obtain ⟨used, hused, hcloses⟩ := h.takenWithCloser rfl
    cases List.append_cancel_right hused
    obtain ⟨t, ts, rfl⟩ := List.exists_cons_of_ne_nil hcloses.ne_nil
    have hplan := h.of_peek
    have hsequence : Runs ⟨maxDepth, line⟩ (.sequence .statement (.statements opening) depth)
        (t :: ts ++ more) (.ok (nodes, more)) →
        Runs ⟨maxDepth, line'⟩ (.sequence .statement (.statements opening) depth) (t :: ts)
          (.ok (nodes, [])) := by
      intro hplan
      refine .sequence_cut rfl hplan ?_ fun us ns hus h => ih _ hus h rfl
      intro ms left hfirst
      exact single_shorter (runs_iff.1 hfirst)
    refine .peek ?_
    cases hshape : t.shape with
    | separator =>
      rw [hshape] at hplan
      exact .shift (.just (ih _ (Nat.lt_succ_self _) hplan.of_shift.of_just rfl))
    | closer k =>
      rw [hshape] at hplan
      cases k with
      | brace =>
        obtain ⟨hnodes, hmore⟩ := Prod.mk.inj (Except.ok.inj (hplan.of_shift.unique .give))
        cases hnodes
        cases List.self_eq_append_left.1 hmore
        exact .shift .give
      | _ => exact hsequence hplan
    | _ =>
      rw [hshape] at hplan
      exact hsequence hplan

theorem Runs.closed_cut {goal : Goal} {k : Closer} (hcloser : goal.closer? = some k)
    (h : Runs ⟨maxDepth, line⟩ (goal.plan depth) (ts ++ more) (.ok (nodes, more))) :
    Runs ⟨maxDepth, line'⟩ (goal.plan depth) ts (.ok (nodes, [])) := by
  cases goal with
  | items => exact h.items_cut
  | statements => exact h.statements_cut
  | _ => cases hcloser

theorem Goal.isLoose_of_closer {goal : Goal} {k : Closer} (h : goal.closer? = some k) :
    goal.isLoose = false := by
  cases goal with
  | items | statements => rfl
  | _ => cases h

/-- **Between an opener and its closer** what is read takes all tokens and the closer, and is the
same whatever follows. -/
theorem Runs.within {goal : Goal} {k : Closer} {inner left : List Token}
    (hcloser : goal.closer? = some k) (hinner : Nested inner) (hclosing : closing.shape = .closer k)
    (h : Runs ⟨maxDepth, line⟩ (goal.plan depth) (inner ++ closing :: rest) (.ok (nodes, left))) :
    left = rest ∧ ∀ line' rest', Runs ⟨maxDepth, line'⟩ (goal.plan depth)
      (inner ++ closing :: rest') (.ok (nodes, rest')) := by
  obtain ⟨used, hused, inner', closing', rfl, hinner', hclosing'⟩ := h.takenWithCloser hcloser
  rw [List.append_assoc] at hused
  obtain ⟨rfl, rfl, rfl⟩ := hinner.eq_of_append hinner' hclosing hclosing' hused
  refine ⟨rfl, fun line' rest' => ?_⟩
  rw [List.append_cons] at h ⊢
  have hcut : Runs ⟨maxDepth, line'⟩ _ _ _ := h.closed_cut hcloser
  have hfirm := goal.extends_plan depth
  rw [Goal.isLoose_of_closer hcloser] at hfirm
  exact hcut.extend_firm hfirm rest'

end Within

end ExprShell.Reader
