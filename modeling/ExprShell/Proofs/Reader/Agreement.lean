/-
The functions of the reader follow the rules: what comes of a rule on a token sequence is what the
function makes of it (`runs_iff`).

By strong induction on the number of tokens. Each function is followed on the assumption that all
are wherever fewer tokens are left; those that consume nothing before they call another one also
take what is known of that one on the same tokens.
-/
import ExprShell.Proofs.Reader.Plan

namespace ExprShell.Reader

/-- An outcome of the reader without its bound, its value as nodes. -/
def result {α : Type} {bound : Nat} (nodes : α → List Node) : Outcome α bound → Result
  | .ok p => .ok (nodes p.value, p.rest)
  | .error f => .error f

/-- The outcome of reading one node. -/
def single {bound : Nat} (outcome : Outcome Node bound) : Result :=
  result (fun n => [n]) outcome

/-- The outcome of reading several nodes. -/
def several {bound : Nat} (outcome : Outcome (List Node) bound) : Result :=
  result id outcome

/-- What the functions of the reader make of something. -/
def run (c : Context) (goal : Goal) (depth : Nat) (ts : List Token) : Result :=
  match goal with
  | .program => (program c depth ts).map fun nodes => (nodes, [])
  | .statement => single (statement c depth ts)
  | .element keywords => single (element c depth keywords ts)
  | .keywordForm k keyword => single (keywordForm c depth k keyword ts)
  | .items o opening quoted first => several (items c depth o opening quoted first ts)
  | .dataElement => single (dataElement c depth ts)
  | .functionBody opening => several (functionBody c depth opening ts)
  | .statements opening => several (statements c depth opening ts)
  | .bareCall head => single (bareCall c depth head ts)
  | .bareArgs head => several (bareArgs c depth head ts)
  | .letValue keyword => single (letValue c depth keyword ts)
  | .branchList keyword => several (branchList c depth keyword ts)
  | .pattern => single (pattern c depth ts)

/-- The functions follow the rules on these tokens. -/
def Follows (c : Context) (goal : Goal) (ts : List Token) : Prop :=
  ∀ depth, Runs c (goal.plan depth) ts (run c goal depth ts)

/-- The functions follow the rules wherever fewer tokens are left. -/
def FollowsBelow (c : Context) (bound : Nat) : Prop :=
  ∀ ts : List Token, ts.length < bound → ∀ goal, Follows c goal ts

theorem text_of_keyword? {t : Token} {k : Keyword} (h : t.keyword? = some k) :
    t.text = k.text := by
  unfold Token.keyword? at h
  split at h
  · next ht => cases h; exact ht
  · next ht => cases h; exact ht
  · next ht => cases h; exact ht
  · cases h

/-- Keywords are names. -/
theorem keyword?_eq_none {t : Token} (h : t.isName = false) : t.keyword? = none := by
  cases hk : t.keyword? with
  | none => rfl
  | some k =>
    have htext := text_of_keyword? hk
    cases k with
    | _ =>
      simp [Token.isName, Token.shape, Token.isString, Token.isNumber, Token.isEscape,
        Number.isLiteral, Keyword.text, htext] at h

section Agreement

variable {c : Context} {depth : Nat} {ts : List Token} {goal : Goal} {next : List Node → Nat → Plan}
  {α β : Type} {n m : Nat} {nodes : α → List Node} {nodes' : β → List Node}

/-- Sequencing in the reader is reading by a rule and going on. -/
theorem Runs.bind {x : Outcome α n} {f : Parsed α n → Outcome β m}
    (hx : Runs c (goal.plan depth) ts (result nodes x))
    (hf : ∀ p : Parsed α n,
      Runs c (next (nodes p.value) (ts.length - p.rest.length)) p.rest (result nodes' (f p))) :
    Runs c (.read goal depth next) ts (result nodes' (x >>= f)) := by
  cases x with
  | ok p => exact .readOk hx (hf p)
  | error f => exact .readError hx

theorem Runs.bindSingle {x : Outcome Node n} {f : Parsed Node n → Outcome β m}
    (hx : Runs c (goal.plan depth) ts (single x))
    (hf : ∀ p : Parsed Node n,
      Runs c (next [p.value] (ts.length - p.rest.length)) p.rest (result nodes' (f p))) :
    Runs c (.read goal depth next) ts (result nodes' (x >>= f)) :=
  .bind hx hf

theorem Runs.bindSeveral {x : Outcome (List Node) n} {f : Parsed (List Node) n → Outcome β m}
    (hx : Runs c (goal.plan depth) ts (several x))
    (hf : ∀ p : Parsed (List Node) n,
      Runs c (next p.value (ts.length - p.rest.length)) p.rest (result nodes' (f p))) :
    Runs c (.read goal depth next) ts (result nodes' (x >>= f)) :=
  .bind hx hf

theorem Runs.enter {opening : Token} {p : Plan} {f : Nat → Outcome β m}
    (h : Runs c p ts (result nodes' (f (depth + 1)))) :
    Runs c (.deeper opening depth p) ts (result nodes' (c.enter opening ts depth >>= f)) := by
  unfold Context.enter
  by_cases hdepth : depth < c.maxDepth
  · rw [if_pos hdepth]
    exact .deeper hdepth h
  · rw [if_neg hdepth]
    exact .tooDeep hdepth

/-- Something that is read instead of something else. -/
theorem Runs.just {r : Result} (h : Runs c (goal.plan depth) ts r) :
    Runs c (Plan.just goal depth) ts r := by
  cases r with
  | ok p => exact .readOk h .give
  | error f => exact .readError h

theorem Runs.delimited {o : Opener} {opening : Token} {quoted : Bool} {next : List Node → Plan}
    {f : Parsed (List Node) ts.length → Outcome β m}
    (hitems : Follows c (.items o opening quoted true) ts)
    (hf : ∀ p : Parsed (List Node) ts.length,
      Runs c (next p.value) p.rest (result nodes' (f p))) :
    Runs c (.delimited depth o opening quoted next) ts
      (result nodes' (Reader.delimited c depth o opening quoted ts >>= f)) := by
  rw [Reader.delimited, bind_assoc]
  exact .enter (.bind (hitems (depth + 1)) hf)

theorem Runs.block {opening : Token} {next : List Node → Plan}
    {f : Parsed (List Node) ts.length → Outcome β m}
    (hstatements : Follows c (.statements opening) ts)
    (hf : ∀ p : Parsed (List Node) ts.length,
      Runs c (next p.value) p.rest (result nodes' (f p))) :
    Runs c (.block depth opening next) ts
      (result nodes' (Reader.block c depth opening ts >>= f)) := by
  rw [Reader.block, bind_assoc]
  exact .enter (.bind (hstatements (depth + 1)) hf)

/-! ### Lists -/

theorem Runs.dataList {o : Opener} {opening : Token}
    (hitems : Follows c (.items o opening true true) ts) :
    Runs c (.dataList depth o opening) ts (single (Reader.dataList c depth o opening ts)) := by
  rw [Reader.dataList]
  exact .delimited hitems fun _ => .give

theorem Runs.listExpression {o : Opener} {opening : Token}
    (below : FollowsBelow c (ts.length + 1)) :
    Runs c (.listExpression depth o opening) ts
      (single (Reader.listExpression c depth o opening ts)) := by
  rw [Reader.listExpression]
  refine .delimited (below ts (Nat.lt_succ_self _) _) fun ⟨items, after, h⟩ => ?_
  cases after with
  | nil =>
    refine .peekEnd ?_
    unfold Plan.call
    dsimp only
    cases callItems items with
    | ok items => exact .give
    | error cause => exact .refuse
  | cons arrow body =>
    refine .peek ?_
    dsimp only
    cases arrow.text == "=>" with
    | false =>
      unfold Plan.call
      cases callItems items with
      | ok items => exact .give
      | error cause => exact .refuse
    | true =>
      refine .shift ?_
      unfold Plan.function
      cases paramNames items with
      | error cause => exact .refuse
      | ok params =>
        have hbody : body.length < ts.length + 1 := by simp only [List.length_cons] at h; omega
        exact .bind (below body hbody (.functionBody opening) depth) fun _ => .give

theorem Runs.patternCall {o : Opener} {opening : Token}
    (hitems : Follows c (.items o opening false true) ts) :
    Runs c (.delimited depth o opening false (.call depth opening)) ts
      (single (Reader.patternCall c depth o opening ts)) := by
  rw [Reader.patternCall]
  refine .delimited hitems fun ⟨items, after, h⟩ => ?_
  unfold Plan.call
  dsimp only
  cases callItems items with
  | ok items => exact .give
  | error cause => exact .refuse

/-! ### Elements and statements -/

theorem Runs.word {t : Token} {change : Node → Node} {x : Outcome Node n}
    (hok : ∀ node, atom depth t = .ok node → single x = .ok ([change node], ts))
    (herror : ∀ cause, atom depth t = .error cause →
      single x = .error (failAt t.line cause ts depth)) :
    Runs c (.word depth t change) (t :: ts) (single x) := by
  refine .shift ?_
  cases hatom : atom depth t with
  | ok node =>
    rw [hok node hatom]
    exact .give
  | error cause =>
    rw [herror cause hatom]
    exact .refuse

theorem element_follows {keywords : Bool} (below : FollowsBelow c ts.length) :
    Follows c (.element keywords) ts := by
  intro depth
  show Runs c _ ts (single (element c depth keywords ts))
  cases ts with
  | nil =>
    rw [element]
    exact .peekEnd .refuseAtEnd
  | cons t rest =>
    have hrest := below rest (Nat.lt_succ_self _)
    rw [element.eq_def]
    refine .peek ?_
    dsimp only
    cases hshape : t.shape with
    | opener o =>
      cases o with
      | paren | bracket => exact .shift (.listExpression below)
      | quotedParen | quotedBracket => exact .shift (.dataList (hrest _))
      | brace => exact .shift (.block (hrest _) fun _ => .give)
    | closer k | separator => exact .refuse
    | word =>
      cases keywords with
      | false => exact .word (fun node h => by rw [h]; rfl) (fun cause h => by rw [h]; rfl)
      | true =>
        cases hkeyword : t.keyword? with
        | none => exact .word (fun node h => by rw [h]; rfl) (fun cause h => by rw [h]; rfl)
        | some k => exact .shift (.just (hrest (.keywordForm k t) depth))

theorem dataElement_follows (below : FollowsBelow c ts.length) : Follows c .dataElement ts := by
  intro depth
  show Runs c _ ts (single (dataElement c depth ts))
  cases ts with
  | nil =>
    rw [dataElement]
    exact .peekEnd .refuseAtEnd
  | cons t rest =>
    have hrest := below rest (Nat.lt_succ_self _)
    rw [dataElement]
    refine .peek ?_
    cases hshape : t.shape with
    | opener o =>
      cases o with
      | brace => exact .refuse
      | _ => exact .shift (.dataList (hrest _))
    | separator => exact .refuse
    | closer k | word => exact .word (fun node h => by rw [h]; rfl) (fun cause h => by rw [h]; rfl)

theorem items_follows {o : Opener} {opening : Token} {quoted first : Bool}
    (below : FollowsBelow c ts.length) (helement : ∀ keywords, Follows c (.element keywords) ts)
    (hdata : Follows c .dataElement ts) : Follows c (.items o opening quoted first) ts := by
  intro depth
  show Runs c _ ts (several (items c depth o opening quoted first ts))
  cases ts with
  | nil =>
    rw [items]
    exact .peekEnd .refuse
  | cons t rest =>
    have hrest := below rest (Nat.lt_succ_self _)
    have hmore : ∀ p : Parsed Node (t :: rest).length,
        Follows c (.items o opening quoted false) p.rest := fun p => below p.rest p.shorter _
    rw [items]
    refine .peek ?_
    cases hshape : t.shape with
    | closer k =>
      dsimp only
      by_cases hk : k = o.closer
      · rw [if_pos hk, if_pos hk]
        exact .shift .give
      · rw [if_neg hk, if_neg hk]
        exact .refuse
    | opener _ | separator | word =>
      cases quoted with
      | true => exact .bindSingle (hdata depth) fun p => .bindSeveral (hmore p depth) fun _ => .give
      | false =>
        exact .bindSingle (helement _ depth) fun p => .bindSeveral (hmore p depth) fun _ => .give

/-- A name is the start of the statement that its plan reads. -/
theorem Runs.named {t : Token} (below : FollowsBelow c (ts.length + 1)) (hname : t.isName = true) :
    Runs c (.named depth t) ts (single (statement c depth (t :: ts))) := by
  have hts := below ts (Nat.lt_succ_self _)
  rw [statement]
  unfold Plan.named
  cases hkeyword : t.keyword? with
  | some k => exact .just (hts (.keywordForm k t) depth)
  | none =>
    dsimp only
    rw [if_pos hname]
    cases ts with
    | nil => exact .peekEnd .give
    | cons next rest =>
      refine .peek ?_
      rw [standsAlone]
      cases next.isCloser || next.text == "|" with
      | true => exact .give
      | false => exact .just (hts (.bareCall t) depth)

theorem statement_follows (below : FollowsBelow c ts.length)
    (helement : Follows c (.element true) ts) : Follows c .statement ts := by
  intro depth
  show Runs c _ ts (single (statement c depth ts))
  cases ts with
  | nil =>
    rw [statement]
    exact .peekEnd .refuseAtEnd
  | cons t rest =>
    refine .peek ?_
    by_cases hname : t.isName = true
    · rw [if_pos hname]
      exact .shift (.named below hname)
    · rw [if_neg hname, statement, keyword?_eq_none (Bool.eq_false_iff.2 hname)]
      dsimp only
      rw [if_neg hname]
      exact .just (helement depth)

theorem pattern_follows (below : FollowsBelow c ts.length)
    (helement : Follows c (.element false) ts) : Follows c .pattern ts := by
  intro depth
  show Runs c _ ts (single (pattern c depth ts))
  cases ts with
  | nil =>
    rw [pattern]
    exact .peekEnd .refuseAtEnd
  | cons t rest =>
    have hrest := below rest (Nat.lt_succ_self _)
    rw [pattern]
    refine .peek ?_
    cases hshape : t.shape with
    | opener o =>
      cases o with
      | paren | bracket => exact .shift (.patternCall (hrest _))
      | _ => exact .just (helement depth)
    | _ => exact .just (helement depth)

theorem functionBody_follows {opening : Token} (below : FollowsBelow c ts.length)
    (helement : Follows c (.element true) ts) : Follows c (.functionBody opening) ts := by
  intro depth
  show Runs c _ ts (several (functionBody c depth opening ts))
  cases ts with
  | nil =>
    rw [functionBody]
    exact .peekEnd .refuse
  | cons t rest =>
    rw [functionBody]
    refine .peek ?_
    by_cases hbrace : t.shape = .opener .brace
    · rw [if_pos hbrace, if_pos hbrace]
      exact .shift (.block (below rest (Nat.lt_succ_self _) _) fun _ => .give)
    · rw [if_neg hbrace, if_neg hbrace]
      exact .enter (.bindSingle (helement (depth + 1)) fun _ => .give)

theorem statements_follows {opening : Token} (below : FollowsBelow c ts.length)
    (hstatement : Follows c .statement ts) : Follows c (.statements opening) ts := by
  intro depth
  show Runs c _ ts (several (statements c depth opening ts))
  cases ts with
  | nil =>
    rw [statements]
    exact .peekEnd .refuse
  | cons t rest =>
    have hmore : ∀ us : List Token, us.length < (t :: rest).length →
        Follows c (.statements opening) us := fun us h => below us h _
    rw [statements]
    refine .peek ?_
    cases hshape : t.shape with
    | separator => exact .shift (.bind (hmore rest (Nat.lt_succ_self _) depth) fun _ => .give)
    | closer k =>
      cases k with
      | brace => exact .shift .give
      | paren | bracket =>
        exact .bindSingle (hstatement depth) fun p =>
          .bindSeveral (hmore p.rest p.shorter depth) fun _ => .give
    | opener _ | word =>
      exact .bindSingle (hstatement depth) fun p =>
        .bindSeveral (hmore p.rest p.shorter depth) fun _ => .give

theorem bareArgs_follows {head : Token} (below : FollowsBelow c ts.length)
    (helement : Follows c (.element false) ts) : Follows c (.bareArgs head) ts := by
  intro depth
  show Runs c _ ts (several (bareArgs c depth head ts))
  cases ts with
  | nil =>
    rw [bareArgs]
    exact .peekEnd .refuse
  | cons t rest =>
    rw [bareArgs]
    refine .peek ?_
    cases hshape : t.shape with
    | separator => exact .shift .give
    | closer _ => exact .refuse
    | opener _ | word =>
      exact .bindSingle (helement depth) fun p =>
        .bindSeveral (below p.rest p.shorter (.bareArgs head) depth) fun _ => .give

theorem bareCall_follows {head : Token} (hargs : Follows c (.bareArgs head) ts) :
    Follows c (.bareCall head) ts := by
  intro depth
  show Runs c _ ts (single (bareCall c depth head ts))
  rw [bareCall]
  exact .enter (.bindSeveral (hargs (depth + 1)) fun _ => .give)

/-! ### Bindings -/

theorem letValue_follows {keyword : Token} (below : FollowsBelow c ts.length)
    (hstatement : Follows c .statement ts) : Follows c (.letValue keyword) ts := by
  intro depth
  show Runs c _ ts (single (letValue c depth keyword ts))
  cases ts with
  | nil =>
    rw [letValue]
    exact .peekEnd .refuse
  | cons t rest =>
    rw [letValue]
    refine .peek ?_
    cases hname : t.isName with
    | false => exact .just (hstatement depth)
    | true =>
      have hnamed : Runs c (.named depth t) rest (single (statement c depth (t :: rest))) :=
        .named below hname
      refine .shift ?_
      cases rest with
      | nil => exact .peekEnd hnamed
      | cons next others =>
        refine .peek ?_
        by_cases hseparator : next.shape = .separator
        · rw [if_pos hseparator, if_pos (by simp [hseparator])]
          exact .give
        · rw [if_neg hseparator, if_neg (by simp [hseparator])]
          exact hnamed

theorem Runs.letEquals {keyword name : Token} {isGlobal : Bool}
    (below : FollowsBelow c ts.length) (hname : name.isName = true) :
    Runs c (.letEquals depth keyword isGlobal name.text) ts
      (single (binding c depth keyword isGlobal (name :: ts))) := by
  cases ts with
  | nil =>
    rw [binding, if_pos hname]
    exact .peekEnd .refuseAtEnd
  | cons eq afterEq =>
    rw [binding]
    refine .peek ?_
    simp only [hname, Bool.not_true, Bool.false_eq_true, if_false]
    cases heq : eq.text == "=" with
    | false =>
      simp only [bne, heq]
      exact .refuse
    | true =>
      simp only [bne, heq]
      refine .shift (.enter (.bindSingle (below afterEq (Nat.lt_succ_self _) _ _) ?_))
      intro p
      obtain ⟨value, after, h⟩ := p
      have hsingle :
          (afterEq.length - after.length == 1) = (after.length + 1 == afterEq.length) := by
        rw [Bool.eq_iff_iff, beq_iff_eq, beq_iff_eq]
        omega
      dsimp only
      rw [hsingle]
      generalize (after.length + 1 == afterEq.length) = alone
      cases after with
      | nil =>
        refine .peekEnd ?_
        cases alone with
        | true => exact .refuse
        | false => exact .give
      | cons t rest =>
        refine .peek ?_
        dsimp only
        by_cases hseparator : t.shape = .separator
        · rw [if_pos hseparator, if_pos hseparator]
          exact .shift .give
        · rw [if_neg hseparator, if_neg hseparator]
          cases alone && !(decide (0 < depth) && t.isCloser) with
          | true => exact .refuse
          | false => exact .give

theorem Runs.letName {keyword : Token} {isGlobal : Bool} (below : FollowsBelow c ts.length) :
    Runs c (.letName depth keyword isGlobal) ts
      (single (binding c depth keyword isGlobal ts)) := by
  cases ts with
  | nil =>
    rw [binding]
    exact .peekEnd .refuseAtEnd
  | cons name rest =>
    refine .peek ?_
    cases hname : name.isName with
    | true =>
      have below : FollowsBelow c rest.length := fun us h => below us (Nat.lt_succ_of_lt h)
      exact .shift (.letEquals below hname)
    | false =>
      cases rest with
      | nil =>
        rw [binding, hname]
        exact .refuse
      | cons eq afterEq =>
        rw [binding, hname]
        exact .refuse

theorem isName_of_global {t : Token} (h : (t.text == "global") = true) : t.isName = true := by
  have htext : t.text = "global" := beq_iff_eq.1 h
  simp [Token.isName, Token.shape, Token.isString, Token.isNumber, Token.isEscape,
    Number.isLiteral, htext]

theorem single_letForm {keyword : Token} :
    single (letForm c depth keyword ts) =
      single (binding c depth keyword (skipGlobal ts).1 (skipGlobal ts).2) := by
  rw [letForm]
  cases binding c depth keyword (skipGlobal ts).1 (skipGlobal ts).2 with
  | ok p => rfl
  | error f => rfl

theorem Runs.letForm {keyword : Token} (below : FollowsBelow c ts.length) :
    Runs c (.letForm depth keyword) ts (single (Reader.letForm c depth keyword ts)) := by
  rw [single_letForm]
  cases ts with
  | nil =>
    have hskip : skipGlobal [] = (false, []) := rfl
    rw [hskip, binding]
    exact .peekEnd .refuseAtEnd
  | cons t rest =>
    have hrest : FollowsBelow c rest.length := fun us h => below us (Nat.lt_succ_of_lt h)
    refine .peek ?_
    cases hglobal : t.text == "global" with
    | false =>
      have hskip : skipGlobal (t :: rest) = (false, t :: rest) := by
        cases rest with
        | nil => rfl
        | cons next others => simp [skipGlobal, hglobal]
      rw [hskip]
      exact .letName below
    | true =>
      refine .shift ?_
      cases rest with
      | nil =>
        have hskip : skipGlobal [t] = (false, [t]) := rfl
        rw [hskip, binding, if_pos (isName_of_global hglobal)]
        exact .peekEnd .refuseAtEnd
      | cons next others =>
        refine .peek ?_
        cases heq : next.text == "=" with
        | true =>
          have hskip : skipGlobal (t :: next :: others) = (false, t :: next :: others) := by
            simp [skipGlobal, hglobal, bne, heq]
          rw [hskip, if_pos rfl, ← beq_iff_eq.1 hglobal]
          exact .letEquals hrest (isName_of_global hglobal)
        | false =>
          have hskip : skipGlobal (t :: next :: others) = (true, next :: others) := by
            simp [skipGlobal, hglobal, bne, heq]
          rw [hskip, if_neg Bool.false_ne_true]
          exact .letName hrest

/-! ### Branches -/

theorem Runs.branches {keyword : Token} {next : List Node → Plan}
    {f : Parsed (List Node) (ts.length + 1) → Outcome β m}
    (hlist : Follows c (.branchList keyword) ts)
    (hf : ∀ p : Parsed (List Node) (ts.length + 1),
      Runs c (next p.value) p.rest (result nodes' (f p))) :
    Runs c (.branches depth keyword next) ts
      (result nodes' (Reader.branches c depth keyword ts >>= f)) := by
  rw [Reader.branches, bind_assoc]
  refine .enter ?_
  rw [bind_assoc]
  refine .bindSeveral (hlist (depth + 1)) fun ⟨bs, final, h⟩ => ?_
  cases bs with
  | nil => exact .refuse
  | cons b bs => exact hf ⟨b :: bs, final, h⟩

theorem Runs.matchForm {keyword : Token} (below : FollowsBelow c ts.length)
    (helement : Follows c (.element false) ts) :
    Runs c (.matchForm depth keyword) ts (single (Reader.matchForm c depth keyword ts)) := by
  rw [Reader.matchForm]
  refine .enter ?_
  cases ts with
  | nil =>
    rw [scrutinee]
    exact .peekEnd .refuse
  | cons t rest =>
    rw [scrutinee]
    refine .peek (.bindSingle (helement (depth + 1)) fun p => ?_)
    exact .branches (below p.rest p.shorter _) fun _ => .give

theorem Runs.condForm {keyword : Token} (hlist : Follows c (.branchList keyword) ts) :
    Runs c (.condForm depth keyword) ts (single (Reader.condForm c depth keyword ts)) := by
  rw [Reader.condForm]
  exact .branches hlist fun _ => .give

theorem branchList_follows {keyword : Token} (below : FollowsBelow c ts.length) :
    Follows c (.branchList keyword) ts := by
  intro depth
  show Runs c _ ts (several (branchList c depth keyword ts))
  cases ts with
  | nil =>
    rw [branchList]
    exact .peekEnd .refuse
  | cons t rest =>
    rw [branchList]
    refine .peek ?_
    by_cases hseparator : t.shape = .separator
    · rw [if_pos hseparator, if_pos hseparator]
      exact .shift .give
    rw [if_neg hseparator, if_neg hseparator]
    cases t.text == "|" with
    | false =>
      cases t.isCloser && decide (1 < depth) with
      | true => exact .give
      | false => exact .refuse
    | true =>
      refine .shift (.enter (.bindSingle (below rest (Nat.lt_succ_self _) .pattern _) ?_))
      intro p
      obtain ⟨p, afterPattern, h⟩ := p
      cases afterPattern with
      | nil => exact .peekEnd .refuseAtEnd
      | cons arrow afterArrow =>
        refine .peek ?_
        dsimp only
        cases arrow.text == "=>" with
        | false => exact .refuse
        | true =>
          refine .shift ?_
          cases afterArrow with
          | nil =>
            rw [branchBody]
            exact .peekEnd .refuse
          | cons first others =>
            rw [branchBody]
            have hbody : (first :: others).length < (t :: rest).length := by
              simp only [List.length_cons] at h ⊢
              omega
            refine .peek (.bindSingle (below _ hbody (.element true) (depth + 1)) fun p => ?_)
            have hrest : p.rest.length < (t :: rest).length := Nat.lt_trans p.shorter hbody
            exact .bindSeveral (below p.rest hrest (.branchList keyword) depth) fun _ => .give

theorem keywordForm_follows {k : Keyword} {keyword : Token} (below : FollowsBelow c ts.length)
    (helement : Follows c (.element false) ts) (hlist : Follows c (.branchList keyword) ts) :
    Follows c (.keywordForm k keyword) ts := by
  intro depth
  show Runs c _ ts (single (keywordForm c depth k keyword ts))
  rw [keywordForm.eq_def]
  cases k with
  | letWord => exact .letForm below
  | matchWord => exact .matchForm below helement
  | condWord => exact .condForm hlist

/-! ### Programs -/

theorem program_follows (below : FollowsBelow c ts.length) (hstatement : Follows c .statement ts) :
    Follows c .program ts := by
  intro depth
  cases ts with
  | nil =>
    rw [run, program]
    exact .peekEnd .give
  | cons t rest =>
    refine .peek ?_
    rw [run, program]
    by_cases hseparator : t.shape = .separator
    · rw [if_pos hseparator, if_pos hseparator]
      exact .shift (.just (below rest (Nat.lt_succ_self _) .program depth))
    · rw [if_neg hseparator, if_neg hseparator]
      have hfirst := hstatement depth
      rw [run] at hfirst
      cases hstatement : statement c depth (t :: rest) with
      | error f =>
        rw [hstatement] at hfirst
        exact .readError hfirst
      | ok p =>
        rw [hstatement] at hfirst
        refine .readOk hfirst ?_
        show Runs c _ p.rest
          (Except.map _ (program c depth p.rest >>= fun ns => pure (p.value :: ns)))
        have hothers := below p.rest p.shorter .program depth
        rw [run] at hothers
        cases hprogram : program c depth p.rest with
        | error f =>
          rw [hprogram] at hothers
          exact .readError hothers
        | ok ns =>
          rw [hprogram] at hothers
          exact .readOk hothers .give

end Agreement

/-- The functions follow the rules. -/
theorem runs_run (c : Context) (goal : Goal) (depth : Nat) (ts : List Token) :
    Runs c (goal.plan depth) ts (run c goal depth ts) := by
  induction hlength : ts.length using Nat.strongRecOn generalizing goal depth ts with
  | ind n ih =>
    subst hlength
    have below : FollowsBelow c ts.length := fun us h goal depth => ih us.length h goal depth us rfl
    have helement : ∀ keywords, Follows c (.element keywords) ts := fun _ => element_follows below
    have hstatement : Follows c .statement ts := statement_follows below (helement true)
    cases goal with
    | program => exact program_follows below hstatement depth
    | statement => exact hstatement depth
    | element keywords => exact helement keywords depth
    | keywordForm k keyword =>
      exact keywordForm_follows below (helement false) (branchList_follows below) depth
    | items o opening quoted first =>
      exact items_follows below helement (dataElement_follows below) depth
    | dataElement => exact dataElement_follows below depth
    | functionBody opening => exact functionBody_follows below (helement true) depth
    | statements opening => exact statements_follows below hstatement depth
    | bareCall head => exact bareCall_follows (bareArgs_follows below (helement false)) depth
    | bareArgs head => exact bareArgs_follows below (helement false) depth
    | letValue keyword => exact letValue_follows below hstatement depth
    | branchList keyword => exact branchList_follows below depth
    | pattern => exact pattern_follows below (helement false) depth

/-- What comes of a rule is what its function makes of the tokens. -/
theorem runs_iff {c : Context} {goal : Goal} {depth : Nat} {ts : List Token} {r : Result} :
    Runs c (goal.plan depth) ts r ↔ run c goal depth ts = r := by
  constructor
  · intro h
    exact (runs_run c goal depth ts).unique h
  · rintro rfl
    exact runs_run c goal depth ts

/-! ## Whole programs -/

/-- What a reader of some tokens returns for an outcome. -/
def Result.delivered (tokens : List Token) (maxDepth : Nat) :
    Result → Except Fault (List Node) × Reader
  | .ok (nodes, _) => (.ok nodes, ⟨tokens, [], 0, maxDepth⟩)
  | .error f => (.error f.fault, ⟨tokens, f.rest, f.depth, maxDepth⟩)

section Programs

variable {tokens : List Token} {maxDepth : Nat} {r : Reader}
variable {c : Context} {depth : Nat} {t : Token} {ts : List Token} {m : Node}

theorem readAll_of_runs {line : Nat} {outcome : Result}
    (h : Runs ⟨maxDepth, line⟩ (Goal.program.plan 0) tokens outcome)
    (hline : line = lastLine tokens) :
    (ofTokens tokens maxDepth).readAll = outcome.delivered tokens maxDepth := by
  subst hline
  have hcontext : (ofTokens tokens maxDepth).context = ⟨maxDepth, lastLine tokens⟩ := rfl
  rw [← runs_iff.1 h, run]
  unfold readAll
  rw [hcontext, ofTokens]
  cases program ⟨maxDepth, lastLine tokens⟩ 0 tokens with
  | ok nodes => rfl
  | error f => rfl

theorem runs_of_readAll_ok {nodes : List Node}
    (h : (ofTokens tokens maxDepth).readAll = (.ok nodes, r)) :
    Runs ⟨maxDepth, lastLine tokens⟩ (Goal.program.plan 0) tokens (.ok (nodes, [])) := by
  have hruns := runs_run ⟨maxDepth, lastLine tokens⟩ .program 0 tokens
  rw [readAll_of_runs hruns rfl] at h
  rw [run] at h hruns
  cases hprogram : program ⟨maxDepth, lastLine tokens⟩ 0 tokens with
  | error f =>
    rw [hprogram] at h
    cases h
  | ok nodes =>
    rw [hprogram] at h hruns
    cases h
    exact hruns

/-- A failure of the reader is one of its rule for programs, at the tokens it has left. -/
theorem runs_of_readAll_error {e : Fault}
    (h : (ofTokens tokens maxDepth).readAll = (.error e, r)) :
    Runs ⟨maxDepth, lastLine tokens⟩ (Goal.program.plan 0) tokens (.error ⟨e, r.rest, r.depth⟩) ∧
      r = ⟨tokens, r.rest, r.depth, maxDepth⟩ := by
  have hruns := runs_run ⟨maxDepth, lastLine tokens⟩ .program 0 tokens
  rw [readAll_of_runs hruns rfl] at h
  cases hrun : run ⟨maxDepth, lastLine tokens⟩ .program 0 tokens with
  | ok p =>
    rw [hrun] at h
    cases h
  | error f =>
    rw [hrun] at h hruns
    cases h
    exact ⟨hruns, rfl⟩

theorem runs_statement {outcome : Result} (ht : t.isName = false)
    (h : Runs c ((Goal.element true).plan depth) (t :: ts) outcome) :
    Runs c (Goal.statement.plan depth) (t :: ts) outcome := by
  refine .peek ?_
  rw [ht]
  exact .just h

/-- A single statement is a whole program. -/
theorem runs_program (hshape : t.shape ≠ .separator)
    (h : Runs c (Goal.statement.plan depth) (t :: ts) (.ok ([m], []))) :
    Runs c (Goal.program.plan depth) (t :: ts) (.ok ([m], [])) := by
  refine .peek ?_
  rw [if_neg hshape]
  exact .readOk h (.readOk (.peekEnd .give) .give)

theorem readAt_of_statement {r : Reader} {start : Nat}
    {p : Parsed Node (r.tokens.drop start).length}
    (h : statement r.context 0 (r.tokens.drop start) = .ok p) :
    r.readAt start =
      (.ok ⟨p.value, r.tokens.length - p.rest.length - 1, (r.tokens[start]?.map (·.line)).getD 0⟩,
        { r with rest := p.rest, depth := 0 }) := by
  simp only [readAt, h, List.head?_drop]

theorem readAt_of_failure {r : Reader} {start : Nat} {f : Failure}
    (h : statement r.context 0 (r.tokens.drop start) = .error f) :
    r.readAt start = (.error f.fault, { r with rest := f.rest, depth := f.depth }) := by
  simp only [readAt, h]

/-- What is read of a text is what the rule for programs makes of all its tokens. -/
theorem parse_eq_ok_iff {source : String} {nodes : List Node} :
    parse source maxDepth = .ok nodes ↔ ∃ tokens, tokenize source = .ok tokens ∧
      Runs ⟨maxDepth, lastLine tokens⟩ (Goal.program.plan 0) tokens (.ok (nodes, [])) := by
  unfold parse
  cases tokenize source with
  | error f =>
    constructor
    · intro h
      cases h
    · rintro ⟨tokens, h, -⟩
      cases h
  | ok tokens =>
    constructor
    · intro h
      exact ⟨tokens, rfl, runs_of_readAll_ok (Prod.ext h rfl)⟩
    · rintro ⟨tokens', htokens, h⟩
      cases htokens
      exact congrArg Prod.fst (readAll_of_runs h rfl)

end Programs

end ExprShell.Reader
