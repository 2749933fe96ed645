/-
Programs in a row (`readAll_append`). Two programs with a separator between them are the one program
and then the other, unless the first one ends in a name, which before a separator is a call.

Only the last statement of the first program can meet the end of its tokens, and it is asked what it
makes of a separator there (`joins_statement`). Most forms are over by then and do not look at what
follows (`Runs.extend_firm`). A list finds that no arrow follows, as at the end of the input. A
binding takes the separator, and those around it find what comes after.
-/
import ExprShell.Proofs.Reader.Extent

namespace ExprShell.Reader

variable {maxDepth line line' depth : Nat} {p : Plan} {ts tail : List Token} {nodes : List Node}

/-! ## Before a separator -/

/-- What is left of some tokens when separators at the front are gone. -/
def Trails (tail rest : List Token) : Prop :=
  ∃ seps : List Token, tail = seps ++ rest ∧ ∀ t ∈ seps, t.shape = .separator

theorem Trails.refl (tail : List Token) : Trails tail tail :=
  ⟨[], rfl, List.forall_mem_nil _⟩

theorem Trails.cons {t : Token} {rest : List Token} (h : Trails tail (t :: rest))
    (ht : t.shape = .separator) : Trails tail rest := by
  obtain ⟨seps, rfl, hseps⟩ := h
  refine ⟨seps ++ [t], by simp, ?_⟩
  exact List.forall_mem_append.2 ⟨hseps, List.forall_mem_singleton.2 ht⟩

theorem Trails.length_le {rest : List Token} (h : Trails tail rest) :
    rest.length ≤ tail.length := by
  obtain ⟨seps, rfl, -⟩ := h
  simp

/-- With more tokens behind its own the plan gives these nodes, and takes none of the others but
separators. -/
def Plan.Joins (c : Context) (p : Plan) (ts tail : List Token) (nodes : List Node) : Prop :=
  ∃ rest, Trails tail rest ∧ Runs c p (ts ++ tail) (.ok (nodes, rest))

namespace Plan.Joins

variable {c : Context} {next : Plan} {t opening : Token}

theorem peek {atEnd : Plan} {next : Token → Plan} (h : (next t).Joins c (t :: ts) tail nodes) :
    Joins c (.peek atEnd next) (t :: ts) tail nodes := by
  obtain ⟨rest, hrest, hruns⟩ := h
  exact ⟨rest, hrest, .peek hruns⟩

theorem shift (h : next.Joins c ts tail nodes) : Joins c (.shift next) (t :: ts) tail nodes := by
  obtain ⟨rest, hrest, hruns⟩ := h
  exact ⟨rest, hrest, .shift hruns⟩

theorem deeper (hdepth : depth < c.maxDepth) (h : next.Joins c ts tail nodes) :
    Joins c (.deeper opening depth next) ts tail nodes := by
  obtain ⟨rest, hrest, hruns⟩ := h
  exact ⟨rest, hrest, .deeper hdepth hruns⟩

theorem just {goal : Goal} (h : (goal.plan depth).Joins c ts tail nodes) :
    Joins c (.just goal depth) ts tail nodes := by
  obtain ⟨rest, hrest, hruns⟩ := h
  exact ⟨rest, hrest, .just hruns⟩

/-- What is over before the end of the input is over before the separator. -/
theorem of_extends (h : Runs ⟨maxDepth, line⟩ p ts (.ok (nodes, []))) (hp : p.Extends false) :
    p.Joins ⟨maxDepth, line'⟩ ts tail nodes :=
  ⟨tail, .refl tail, h.extend_firm hp tail⟩

end Plan.Joins

/-- Elements and statements of fewer tokens give the same before the separator as at the end of the
input. Statements of a single token, which may be a name, are left out. -/
def JoinsBelow (maxDepth line line' : Nat) (tail : List Token) (bound : Nat) : Prop :=
  ∀ us : List Token, us.length < bound → ∀ depth nodes,
    (Runs ⟨maxDepth, line⟩ ((Goal.element true).plan depth) us (.ok (nodes, [])) →
      ((Goal.element true).plan depth).Joins ⟨maxDepth, line'⟩ us tail nodes) ∧
    (us.length ≠ 1 → Runs ⟨maxDepth, line⟩ (Goal.statement.plan depth) us (.ok (nodes, [])) →
      (Goal.statement.plan depth).Joins ⟨maxDepth, line'⟩ us tail nodes)

theorem JoinsBelow.mono {bound bound' : Nat} (h : JoinsBelow maxDepth line line' tail bound')
    (hle : bound ≤ bound') : JoinsBelow maxDepth line line' tail bound :=
  fun us hus => h us (Nat.lt_of_lt_of_le hus hle)

/-! ### Lists -/

theorem joins_functionBody {opening : Token}
    (below : JoinsBelow maxDepth line line' tail (ts.length + 1))
    (h : Runs ⟨maxDepth, line⟩ ((Goal.functionBody opening).plan depth) ts (.ok (nodes, []))) :
    ((Goal.functionBody opening).plan depth).Joins ⟨maxDepth, line'⟩ ts tail nodes := by
  obtain ⟨t, ts, rfl, hplan⟩ := h.exists_token (fun _ hend => by cases hend)
  refine .peek ?_
  by_cases hbrace : t.shape = .opener .brace
  · rw [if_pos hbrace] at hplan ⊢
    exact .shift (.of_extends hplan.of_shift (Plan.extends_block _ fun _ => trivial))
  · rw [if_neg hbrace] at hplan ⊢
    obtain ⟨hdepth, hplan⟩ := hplan.of_deeper
    exact .deeper hdepth (.just ((below _ (Nat.lt_succ_self _) _ _).1 hplan.of_just))

theorem joins_listExpression {opening : Token} {o : Opener} (htail : NoArrow tail)
    (below : JoinsBelow maxDepth line line' tail ts.length)
    (h : Runs ⟨maxDepth, line⟩ (.listExpression depth o opening) ts (.ok (nodes, []))) :
    (Plan.listExpression depth o opening).Joins ⟨maxDepth, line'⟩ ts tail nodes := by
  obtain ⟨hdepth, items, left, hitems, hcall | hfunction⟩ := h.of_listExpression
  · obtain ⟨-, rfl, ns, hns, rfl⟩ := hcall
    have hitems : Runs ⟨maxDepth, line'⟩ _ _ _ :=
      hitems.extend_firm ((Goal.items o opening false true).extends_plan (depth + 1)) tail
    exact ⟨tail, .refl tail, runs_call hdepth hitems hns htail⟩
  · obtain ⟨arrow, body, params, ns, rfl, harrow, hparams, hbody, rfl⟩ := hfunction
    have hlength : (arrow :: body).length ≤ ts.length := hitems.rest_suffix.length_le
    obtain ⟨rest, hrest, hbody⟩ := joins_functionBody (below.mono hlength) hbody
    have hitems : Runs ⟨maxDepth, line'⟩ _ _ _ := hitems.append tail (List.cons_ne_nil _ _)
    exact ⟨rest, hrest, runs_function hdepth hitems hparams harrow hbody⟩

theorem joins_opened {opening : Token} {o : Opener} (htail : NoArrow tail)
    (below : JoinsBelow maxDepth line line' tail ts.length)
    (h : Runs ⟨maxDepth, line⟩ (.opened depth opening o) ts (.ok (nodes, []))) :
    (Plan.opened depth opening o).Joins ⟨maxDepth, line'⟩ ts tail nodes := by
  cases o with
  | paren | bracket => exact joins_listExpression htail below h
  | quotedParen | quotedBracket => exact .of_extends h (Plan.extends_dataList _)
  | brace => exact .of_extends h (Plan.extends_block _ fun _ => trivial)

/-! ### Bindings -/

/-- A binding of more than one token ends where it is, but for a separator. -/
theorem joins_letEnd (c : Context) (depth : Nat) (keyword : Token) (node : Node)
    {rest : List Token} (h : Trails tail rest) :
    ∃ rest', Trails tail rest' ∧
      Runs c (.letEnd depth keyword false node) rest (.ok ([node], rest')) := by
  cases rest with
  | nil => exact ⟨[], h, .peekEnd .give⟩
  | cons t rest =>
    by_cases ht : t.shape = .separator
    · exact ⟨rest, h.cons ht, runs_letEnd_separator ht⟩
    · refine ⟨t :: rest, h, .peek ?_⟩
      rw [if_neg ht]
      exact .give

theorem joins_letValue {keyword : Token}
    (below : JoinsBelow maxDepth line line' tail (ts.length + 1)) (hlength : ts.length ≠ 1)
    (h : Runs ⟨maxDepth, line⟩ ((Goal.letValue keyword).plan depth) ts (.ok (nodes, []))) :
    ((Goal.letValue keyword).plan depth).Joins ⟨maxDepth, line'⟩ ts tail nodes := by
  obtain ⟨t, ts, rfl, hpeeked⟩ := h.exists_token (fun _ hend => by cases hend)
  have hnext : NoSeparator t ts := by
    intro hname
    rw [if_pos hname] at hpeeked
    cases ts with
    | nil => exact absurd rfl hlength
    | cons next rest =>
      refine ⟨next, rest, rfl, fun hseparator => ?_⟩
      have hnamed := hpeeked.of_shift.of_peek
      rw [if_pos hseparator] at hnamed
      cases hnamed
  obtain ⟨rest, hrest, hstatement⟩ :=
    (below _ (Nat.lt_succ_self _) _ _).2 hlength ((letValue_iff_statement hnext).1 h)
  refine ⟨rest, hrest, (letValue_iff_statement fun hname => ?_).2 hstatement⟩
  obtain ⟨next, rest, rfl, hseparator⟩ := hnext hname
  exact ⟨next, rest ++ tail, rfl, hseparator⟩

theorem joins_letEquals {keyword : Token} {isGlobal : Bool} {name : String}
    (below : JoinsBelow maxDepth line line' tail ts.length)
    (h : Runs ⟨maxDepth, line⟩ (.letEquals depth keyword isGlobal name) ts (.ok (nodes, []))) :
    (Plan.letEquals depth keyword isGlobal name).Joins ⟨maxDepth, line'⟩ ts tail nodes := by
  obtain ⟨eq, us, value, after, rfl, heq, hdepth, hvalue, hend⟩ := h.of_letEquals
  obtain ⟨rfl, ⟨t, ht, rfl⟩ | ⟨rfl, hsingle⟩⟩ := hend.of_letEnd
  · -- the binding has its separator already
    have hvalue : Runs ⟨maxDepth, line'⟩ _ _ _ := hvalue.append tail (List.cons_ne_nil _ _)
    exact ⟨tail, .refl tail, runs_letEquals heq hdepth hvalue (runs_letEnd_separator ht)⟩
  · have hlength : us.length ≠ 1 := by simpa using hsingle rfl
    have hpositive : us.length ≠ 0 := by
      obtain ⟨t, us, rfl, -⟩ := hvalue.exists_token (fun _ hend => by cases hend)
      exact Nat.succ_ne_zero _
    obtain ⟨after, hafter, hvalue⟩ := joins_letValue below hlength hvalue
    obtain ⟨rest, hrest, hend⟩ := joins_letEnd ⟨maxDepth, line'⟩ depth keyword
      (callAt depth (Plan.boundItems (depth + 1) isGlobal name value)) hafter
    -- separators that the value has taken make it no shorter
    have hcount : ((us ++ tail).length - after.length == 1) = false := by
      have hle := hafter.length_le
      rw [beq_eq_false_iff_ne, List.length_append]
      omega
    rw [← hcount] at hend
    exact ⟨rest, hrest, runs_letEquals heq hdepth hvalue hend⟩

theorem joins_letName {keyword : Token} {isGlobal : Bool}
    (below : JoinsBelow maxDepth line line' tail ts.length)
    (h : Runs ⟨maxDepth, line⟩ (.letName depth keyword isGlobal) ts (.ok (nodes, []))) :
    (Plan.letName depth keyword isGlobal).Joins ⟨maxDepth, line'⟩ ts tail nodes := by
  obtain ⟨name, ts, rfl, hplan⟩ := h.exists_token (fun _ hend => by cases hend)
  refine .peek ?_
  by_cases hname : name.isName = true
  · rw [if_pos hname] at hplan ⊢
    exact .shift (joins_letEquals (below.mono (Nat.le_succ _)) hplan.of_shift)
  · rw [if_neg hname] at hplan
    cases hplan

theorem joins_letForm {keyword : Token} (below : JoinsBelow maxDepth line line' tail ts.length)
    (h : Runs ⟨maxDepth, line⟩ (.letForm depth keyword) ts (.ok (nodes, []))) :
    (Plan.letForm depth keyword).Joins ⟨maxDepth, line'⟩ ts tail nodes := by
  obtain ⟨t, ts, rfl, hplan⟩ := h.exists_token (fun _ hend => by cases hend)
  refine .peek ?_
  by_cases hglobal : (t.text == "global") = true
  · rw [if_pos hglobal] at hplan ⊢
    refine .shift ?_
    obtain ⟨next, ts, rfl, hafter⟩ := hplan.of_shift.exists_token (fun _ hend => by cases hend)
    have below := below.mono (Nat.le_succ (next :: ts).length)
    refine .peek ?_
    by_cases heq : (next.text == "=") = true
    · rw [if_pos heq] at hafter ⊢
      exact joins_letEquals below hafter
    · rw [if_neg heq] at hafter ⊢
      exact joins_letName below hafter
  · rw [if_neg hglobal] at hplan ⊢
    exact joins_letName below hplan

/-! ### Elements and statements -/

theorem joins_keywordForm {k : Keyword} {keyword : Token}
    (below : JoinsBelow maxDepth line line' tail ts.length)
    (h : Runs ⟨maxDepth, line⟩ ((Goal.keywordForm k keyword).plan depth) ts (.ok (nodes, []))) :
    ((Goal.keywordForm k keyword).plan depth).Joins ⟨maxDepth, line'⟩ ts tail nodes := by
  cases k with
  | letWord => exact joins_letForm below h
  | matchWord => exact .of_extends h Plan.extends_matchForm
  | condWord => exact .of_extends h Plan.extends_condForm

theorem joins_element (htail : NoArrow tail) (below : JoinsBelow maxDepth line line' tail ts.length)
    (h : Runs ⟨maxDepth, line⟩ ((Goal.element true).plan depth) ts (.ok (nodes, []))) :
    ((Goal.element true).plan depth).Joins ⟨maxDepth, line'⟩ ts tail nodes := by
  obtain ⟨t, ts, rfl, hplan⟩ := h.exists_token (fun _ hend => by cases hend)
  have below := below.mono (Nat.le_succ ts.length)
  refine .peek ?_
  cases hshape : t.shape with
  | opener o =>
    rw [hshape] at hplan
    exact .shift (joins_opened htail below hplan.of_shift)
  | closer k =>
    rw [hshape] at hplan
    cases hplan
  | separator =>
    rw [hshape] at hplan
    cases hplan
  | word =>
    rw [hshape] at hplan
    cases hkeyword : t.keyword? with
    | some k =>
      rw [hkeyword] at hplan
      exact .shift (.just (joins_keywordForm below hplan.of_shift.of_just))
    | none =>
      rw [hkeyword] at hplan
      exact .of_extends hplan (Plan.extends_word id)

/-- Nothing starts with a keyword and ends there. -/
theorem not_runs_keywordForm_nil {c : Context} {k : Keyword} {keyword : Token}
    {rest : List Token} :
    ¬ Runs c ((Goal.keywordForm k keyword).plan depth) [] (.ok (nodes, rest)) := by
  intro h
  have hshort : ((Goal.keywordForm k keyword).plan depth).EndsShort false := by
    cases k with
    | letWord => exact fun _ => rfl
    | matchWord => exact rfl
    | condWord => exact fun hloose => by cases hloose
  have hcut := h.cutShort rfl hshort
  cases hcut.1

theorem joins_named {t : Token} (below : JoinsBelow maxDepth line line' tail ts.length)
    (hts : ts ≠ []) (h : Runs ⟨maxDepth, line⟩ (.named depth t) ts (.ok (nodes, []))) :
    (Plan.named depth t).Joins ⟨maxDepth, line'⟩ ts tail nodes := by
  unfold Plan.named at h ⊢
  cases hkeyword : t.keyword? with
  | some k =>
    rw [hkeyword] at h
    exact .just (joins_keywordForm below h.of_just)
  | none =>
    rw [hkeyword] at h
    obtain ⟨next, ts, rfl⟩ := List.exists_cons_of_ne_nil hts
    have h := h.of_peek
    refine .peek ?_
    split at h
    · cases h
    · next hnext =>
      rw [if_neg hnext]
      exact .just (.of_extends h.of_just fun _ _ => ⟨trivial, fun hloose => by cases hloose⟩)

/-- A statement that is not a single name is the same before a separator as at the end of the
input. -/
theorem joins_statement (htail : NoArrow tail)
    (below : JoinsBelow maxDepth line line' tail ts.length)
    (h : Runs ⟨maxDepth, line⟩ (Goal.statement.plan depth) ts (.ok (nodes, []))) :
    (Goal.statement.plan depth).Joins ⟨maxDepth, line'⟩ ts tail nodes ∨
      ∃ t, ts = [t] ∧ nodes = [nameAt depth t.text] := by
  obtain ⟨t, ts, rfl, hplan⟩ := h.exists_token (fun _ hend => by cases hend)
  by_cases hname : t.isName = true
  · rw [if_pos hname] at hplan
    have hnamed := hplan.of_shift
    cases ts with
    | nil =>
      right
      unfold Plan.named at hnamed
      cases hkeyword : t.keyword? with
      | some k =>
        rw [hkeyword] at hnamed
        exact absurd hnamed.of_just not_runs_keywordForm_nil
      | none =>
        rw [hkeyword] at hnamed
        cases hnamed with
        | peekEnd hgive =>
          cases hgive
          exact ⟨t, rfl, rfl⟩
    | cons next ts =>
      left
      refine .peek ?_
      rw [if_pos hname]
      exact .shift (joins_named (below.mono (Nat.le_succ _)) (List.cons_ne_nil _ _) hnamed)
  · left
    rw [if_neg hname] at hplan
    refine .peek ?_
    rw [if_neg hname]
    exact .just (joins_element htail below hplan.of_just)

theorem joinsBelow (htail : NoArrow tail) (bound : Nat) :
    JoinsBelow maxDepth line line' tail bound := by
  induction bound with
  | zero =>
    intro us hus
    exact absurd hus (Nat.not_lt_zero _)
  | succ bound ih =>
    intro us hus depth nodes
    have below : JoinsBelow maxDepth line line' tail us.length := ih.mono (Nat.le_of_lt_succ hus)
    refine ⟨fun helement => joins_element htail below helement, fun hlength hstatement => ?_⟩
    rcases joins_statement htail below hstatement with hjoins | ⟨t, rfl, -⟩
    · exact hjoins
    · exact absurd rfl hlength

/-! ## Programs -/

section Programs

variable {c : Context} {t : Token} {left rest : List Token} {nodes' : List Node}

theorem runs_program_separator (ht : t.shape = .separator)
    (h : Runs c (Goal.program.plan depth) ts (.ok (nodes, []))) :
    Runs c (Goal.program.plan depth) (t :: ts) (.ok (nodes, [])) := by
  refine .peek ?_
  rw [if_pos ht]
  exact .shift (.just h)

theorem runs_program_cons (ht : t.shape ≠ .separator)
    (h : Runs c (Goal.statement.plan depth) (t :: ts) (.ok (nodes, left)))
    (hleft : Runs c (Goal.program.plan depth) left (.ok (nodes', []))) :
    Runs c (Goal.program.plan depth) (t :: ts) (.ok (nodes ++ nodes', [])) := by
  refine .peek ?_
  rw [if_neg ht]
  exact .readOk h (.readOk hleft .give)

theorem Runs.of_program_separator (ht : t.shape = .separator)
    (h : Runs c (Goal.program.plan depth) (t :: ts) (.ok (nodes, rest))) :
    Runs c (Goal.program.plan depth) ts (.ok (nodes, rest)) := by
  have hplan := h.of_peek
  rw [if_pos ht] at hplan
  exact hplan.of_shift.of_just

theorem Runs.of_program_cons (ht : t.shape ≠ .separator)
    (h : Runs c (Goal.program.plan depth) (t :: ts) (.ok (nodes, rest))) :
    ∃ first left others, Runs c (Goal.statement.plan depth) (t :: ts) (.ok (first, left)) ∧
      Runs c (Goal.program.plan depth) left (.ok (others, rest)) ∧ nodes = first ++ others := by
  have hplan := h.of_peek
  rw [if_neg ht] at hplan
  obtain ⟨first, left, hfirst, hplan⟩ := hplan.of_read
  obtain ⟨others, after, hothers, hgive⟩ := hplan.of_read
  cases hgive
  exact ⟨first, left, others, hfirst, hothers, rfl⟩

/-- Separators before a program do not matter. -/
theorem runs_program_of_trails (htrails : Trails tail rest)
    (h : Runs c (Goal.program.plan depth) tail (.ok (nodes, []))) :
    Runs c (Goal.program.plan depth) rest (.ok (nodes, [])) := by
  obtain ⟨seps, rfl, hseps⟩ := htrails
  induction seps with
  | nil => exact h
  | cons t seps ih =>
    obtain ⟨ht, hseps⟩ := List.forall_mem_cons.1 hseps
    exact ih hseps (h.of_program_separator ht)

/-- The last node is a name that is not quoted. -/
def EndsInName (nodes : List Node) : Prop :=
  ∃ s name, nodes.getLast? = some (.identifier s name) ∧ s.quoted = false

theorem EndsInName.append (h : EndsInName nodes') : EndsInName (nodes ++ nodes') := by
  obtain ⟨s, name, hlast, hquoted⟩ := h
  refine ⟨s, name, ?_, hquoted⟩
  rw [List.getLast?_append, hlast]
  rfl

theorem runs_program_append (htail : NoArrow tail)
    (h : Runs ⟨maxDepth, line⟩ (Goal.program.plan 0) ts (.ok (nodes, [])))
    (hlast : ¬ EndsInName nodes)
    (h' : Runs ⟨maxDepth, line'⟩ (Goal.program.plan 0) tail (.ok (nodes', []))) :
    Runs ⟨maxDepth, line'⟩ (Goal.program.plan 0) (ts ++ tail) (.ok (nodes ++ nodes', [])) := by
  induction hlength : ts.length using Nat.strongRecOn generalizing ts nodes with
  | ind bound ih =>
    subst hlength
    cases ts with
    | nil =>
      cases h with
      | peekEnd hgive =>
        cases hgive
        exact h'
    | cons t ts =>
      by_cases ht : t.shape = .separator
      · have hothers := ih ts.length (Nat.lt_succ_self _) (h.of_program_separator ht) hlast rfl
        exact runs_program_separator ht hothers
      · obtain ⟨first, left, others, hfirst, hothers, rfl⟩ := h.of_program_cons ht
        have hshorter := run_shorter rfl (runs_iff.1 hfirst)
        by_cases hleft : left = []
        · -- the last statement meets the tokens that follow
          subst hleft
          cases hothers with
          | peekEnd hgive =>
            cases hgive
            rw [List.append_nil] at hlast ⊢
            rcases joins_statement htail (joinsBelow htail _) hfirst with hjoins | ⟨name, -, rfl⟩
            · obtain ⟨rest, hrest, hstatement⟩ := hjoins
              exact runs_program_cons ht hstatement (runs_program_of_trails hrest h')
            · exact absurd ⟨_, _, rfl, rfl⟩ hlast
        · have hfirst : Runs ⟨maxDepth, line'⟩ _ _ _ := hfirst.append tail hleft
          have hothers := ih left.length hshorter hothers (fun hend => hlast hend.append) rfl
          rw [List.append_assoc]
          exact runs_program_cons ht hfirst hothers

end Programs

/-- **Programs in a row are one program.** Two programs that are read, with a separator between
them, are read as the nodes of the one and then those of the other, unless the first ends in a name
that is not quoted. -/
theorem readAll_append {tokens tokens' : List Token} {nodes nodes' : List Node} {separator : Token}
    (h : (ofTokens tokens maxDepth).readAll.1 = .ok nodes)
    (h' : (ofTokens tokens' maxDepth).readAll.1 = .ok nodes')
    (hlast : ¬ EndsInName nodes) (hseparator : separator.text = ";") :
    (ofTokens (tokens ++ separator :: tokens') maxDepth).readAll.1 = .ok (nodes ++ nodes') := by
  have hshape : separator.shape = .separator := by simp [Token.shape, hseparator]
  have harrow : NoArrow (separator :: tokens') := .cons (by simp [hseparator])
  have hruns := runs_of_readAll_ok (Prod.ext h rfl)
  have hruns' : Runs ⟨maxDepth, lastLine (tokens ++ separator :: tokens')⟩ (Goal.program.plan 0)
      tokens' (.ok (nodes', [])) := (runs_of_readAll_ok (Prod.ext h' rfl)).anyLine rfl
  have happend := runs_program_append harrow hruns hlast (runs_program_separator hshape hruns')
  exact congrArg Prod.fst (readAll_of_runs happend rfl)

/-- A binding in a binding and a name after them. The inner binding takes the separator and the
outer one ends before the name. -/
theorem readAll_append_bindings :
    let tokens : List Token := [⟨"let", 1⟩, ⟨"a", 1⟩, ⟨"=", 1⟩, ⟨"let", 1⟩, ⟨"b", 1⟩, ⟨"=", 1⟩,
      ⟨"(", 1⟩, ⟨"f", 1⟩, ⟨")", 1⟩]
    let inner := callAt 1 [operatorAt 2 "let", nameAt 2 "b", callAt 2 [operatorAt 3 "f"]]
    let outer := callAt 0 [operatorAt 1 "let", nameAt 1 "a", inner]
    (ofTokens tokens 3).readAll.1 = .ok [outer] ∧
      (ofTokens [⟨"x", 2⟩] 3).readAll.1 = .ok [nameAt 0 "x"] ∧ ¬ EndsInName [outer] ∧
      (ofTokens (tokens ++ ⟨";", 1⟩ :: [⟨"x", 2⟩]) 3).readAll.1 = .ok [outer, nameAt 0 "x"] := by
  intro tokens inner outer
  have hitems : Runs ⟨3, 1⟩ ((Goal.items .paren ⟨"(", 1⟩ false true).plan 3) [⟨"f", 1⟩, ⟨")", 1⟩]
      (.ok ([nameAt 3 "f"], [])) :=
    .peek (.readOk (.peek (.shift .give)) (.readOk (.peek (.shift .give)) .give))
  have hcall : Runs ⟨3, 1⟩ ((Goal.letValue ⟨"let", 1⟩).plan 2) [⟨"(", 1⟩, ⟨"f", 1⟩, ⟨")", 1⟩]
      (.ok ([callAt 2 [operatorAt 3 "f"]], [])) := by
    refine .peek (.just (.peek (.just (.peek (.shift ?_)))))
    exact .deeper (by decide) (.readOk hitems (.peekEnd .give))
  have hinner : Runs ⟨3, 1⟩ (.letForm 1 ⟨"let", 1⟩)
      [⟨"b", 1⟩, ⟨"=", 1⟩, ⟨"(", 1⟩, ⟨"f", 1⟩, ⟨")", 1⟩] (.ok ([inner], [])) :=
    .peek (.peek (.shift (runs_letEquals rfl (by decide) hcall (.peekEnd .give))))
  have hvalue : Runs ⟨3, 1⟩ ((Goal.letValue ⟨"let", 1⟩).plan 1)
      [⟨"let", 1⟩, ⟨"b", 1⟩, ⟨"=", 1⟩, ⟨"(", 1⟩, ⟨"f", 1⟩, ⟨")", 1⟩] (.ok ([inner], [])) :=
    .peek (.shift (.peek (.just hinner)))
  have houter : Runs ⟨3, 1⟩ (Goal.program.plan 0) tokens (.ok ([outer], [])) := by
    refine runs_program (by decide) (.peek (.shift (.just (.peek (.peek (.shift ?_))))))
    exact runs_letEquals rfl (by decide) hvalue (.peekEnd .give)
  have hname : Runs ⟨3, 2⟩ (Goal.program.plan 0) [⟨"x", 2⟩] (.ok ([nameAt 0 "x"], [])) :=
    runs_program (by decide) (.peek (.shift (.peekEnd .give)))
  have hread : (ofTokens tokens 3).readAll.1 = .ok [outer] :=
    congrArg Prod.fst (readAll_of_runs houter rfl)
  have hread' : (ofTokens [⟨"x", 2⟩] 3).readAll.1 = .ok [nameAt 0 "x"] :=
    congrArg Prod.fst (readAll_of_runs hname rfl)
  have hlast : ¬ EndsInName [outer] := by
    intro hend
    obtain ⟨s, name, hlast, -⟩ := hend
    cases hlast
  exact ⟨hread, hread', hlast, readAll_append hread hread' hlast rfl⟩

end ExprShell.Reader
