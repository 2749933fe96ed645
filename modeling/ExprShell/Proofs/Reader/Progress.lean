/-
The reader always comes to an end, moves forward and stays inside its tokens. The code of each rule
does what the rule's plan does and brings the nesting counter back (`Goal.does`), so wherever a plan
comes to a result the machine comes to the same one, without getting outside (`Runs.ends`). Whatever
is asked of one reader, programs and single expressions from anywhere, the machine answers like the
reader (`machine_total`).
-/
import ExprShell.Proofs.Reader.Final
import ExprShell.Proofs.Reader.Machine

namespace ExprShell.Reader

/-! ## Code and plans -/

namespace Code

/-- With the counter at `n` the code does what the plan does, and brings the counter to `d`. Cuts
that it makes are in range. -/
def Does (d : Nat) : Code → Nat → Plan → Prop
  | .give nodes, n, p => n = d ∧ p = .give nodes
  | .fail line cause, n, p => p = .refuse n line cause
  | .failAtEnd cause, n, p => p = .refuseAtEnd n cause
  | .peek atEnd next, n, p =>
    ∃ pEnd pnext, p = .peek pEnd pnext ∧ atEnd.Does d n pEnd ∧ ∀ t, (next t).Does d n (pnext t)
  | .advance next, n, p => ∃ pnext, p = .shift pnext ∧ next.Does d n pnext
  | .cut text first last next, n, p =>
    ∃ part, cut? text first last = some part ∧ (next part).Does d n p
  | .enter opening next, n, p =>
    ∃ pnext, p = .deeper opening n pnext ∧ next.Does d (n + 1) pnext
  | .leave next, n, p => next.Does d (n - 1) p
  | .level next, n, p => (next n).Does d n p
  | .call goal next, n, p =>
    ∃ pnext, p = .read goal n pnext ∧
      ∀ nodes count, (next nodes count).Does d n (pnext nodes count)

variable {d n : Nat} {t opening keyword : Token}

theorem Does.ite {c : Prop} [Decidable c] {code code' : Code} {p p' : Plan}
    (h : c → code.Does d n p) (h' : ¬ c → code'.Does d n p') :
    (if c then code else code').Does d n (if c then p else p') := by
  by_cases hc : c
  · rw [if_pos hc, if_pos hc]
    exact h hc
  · rw [if_neg hc, if_neg hc]
    exact h' hc

theorem does_just (goal : Goal) : (just goal).Does d d (.just goal d) :=
  ⟨_, rfl, fun _ _ => ⟨rfl, rfl⟩⟩

theorem does_lone (t : Token) : (lone t).Does d d (.give [nameAt d t.text]) :=
  ⟨rfl, rfl⟩

/-! ### Atoms -/

theorem cut?_string (h : t.isString = true) :
    cut? t.text 1 (byteSize t.text.toList - 1) = some (unquoted t.text) := by
  obtain ⟨cs, hcs⟩ := Token.toList_of_isString h
  have hquote : Char.utf8Size '"' = 1 := by decide
  have hpart : unquoted t.text = String.ofList cs := by
    simp [unquoted, hcs]
  rw [hpart]
  refine cut?_eq_some ['"'] ['"'] ?_ ?_ ?_
  · simpa using hcs
  · simp [byteSize, hquote]
  · simp only [hcs, byteSize, byteSize_append, hquote]
    omega

theorem cut?_escape (h : t.isEscape = true) :
    cut? t.text 1 (byteSize t.text.toList) = some (String.ofList (t.text.toList.drop 1)) := by
  have hsign : Char.utf8Size '@' = 1 := by decide
  unfold Token.isEscape at h
  split at h
  · next c rest htext =>
    refine cut?_eq_some ['@'] [] ?_ ?_ ?_
    · simp [htext]
    · simp [byteSize, hsign]
    · simp [htext, byteSize, hsign]
  · cases h

theorem does_word (change : Node → Node) : (word t change).Does d d (.word d t change) := by
  refine ⟨_, rfl, ?_⟩
  unfold Reader.atom
  simp only [atom, Does]
  split
  · cases Number.ofLiteral? t.text with
    | some n => exact ⟨rfl, rfl⟩
    | none => exact rfl
  · split
    · next hstring => exact ⟨_, cut?_string hstring, rfl, rfl⟩
    · split
      · exact ⟨rfl, rfl⟩
      · split
        · exact ⟨rfl, rfl⟩
        · split
          · next hescape => exact ⟨_, cut?_escape hescape, rfl, rfl⟩
          · exact ⟨rfl, rfl⟩

/-! ### Forms -/

theorem does_callOf (items : List Node) :
    (callOf opening items).Does d d (.call d opening items) := by
  simp only [callOf, Does, Plan.call]
  cases callItems items with
  | ok items => exact ⟨rfl, rfl⟩
  | error cause => exact rfl

theorem does_delimited {next : List Node → Code} {pnext : List Node → Plan} (o : Opener)
    (quoted : Bool) (h : ∀ items, (next items).Does d n (pnext items)) :
    (delimited o opening quoted next).Does d n (.delimited n o opening quoted pnext) :=
  ⟨_, rfl, _, rfl, fun items _ => h items⟩

theorem does_dataList (o : Opener) : (dataList o opening).Does d d (.dataList d o opening) :=
  does_delimited o true fun _ => ⟨rfl, rfl⟩

theorem does_function (items : List Node) :
    (function opening items).Does d d (.function d opening items) := by
  unfold function Plan.function
  cases paramNames items with
  | ok params => exact ⟨_, rfl, fun _ _ => ⟨rfl, rfl⟩⟩
  | error cause => exact rfl

theorem does_listExpression (o : Opener) :
    (listExpression o opening).Does d d (.listExpression d o opening) := by
  refine does_delimited o false fun items => ⟨_, _, rfl, does_callOf items, fun arrow => ?_⟩
  exact .ite (fun _ => ⟨_, rfl, does_function items⟩) fun _ => does_callOf items

theorem does_block {next : List Node → Code} {pnext : List Node → Plan}
    (h : ∀ body, (next body).Does d n (pnext body)) :
    (block opening next).Does d n (.block n opening pnext) :=
  ⟨_, rfl, _, rfl, fun body _ => h body⟩

theorem does_opened (o : Opener) : (opened opening o).Does d d (.opened d opening o) := by
  cases o with
  | paren | bracket => exact does_listExpression _
  | quotedParen | quotedBracket => exact does_dataList _
  | brace => exact does_block fun _ => ⟨rfl, rfl⟩

theorem does_named (t : Token) : (named t).Does d d (.named d t) := by
  unfold named Plan.named
  cases t.keyword? with
  | some k => exact does_just _
  | none =>
    refine ⟨_, _, rfl, does_lone t, fun next => ?_⟩
    exact .ite (fun _ => does_lone t) fun _ => does_just _

/-! ### Bindings -/

theorem does_letEnd (single : Bool) (node : Node) :
    (letEnd keyword single node).Does d d (.letEnd d keyword single node) := by
  refine ⟨_, _, rfl, .ite (fun _ => rfl) (fun _ => ⟨rfl, rfl⟩), fun t => ?_⟩
  refine .ite (fun _ => ⟨_, rfl, rfl, rfl⟩) fun _ => ?_
  exact Does.ite (fun _ => rfl) fun _ => ⟨rfl, rfl⟩

theorem does_letEquals (isGlobal : Bool) (name : String) :
    (letEquals keyword isGlobal name).Does d d (.letEquals d keyword isGlobal name) := by
  refine ⟨_, _, rfl, rfl, fun eq => .ite (fun _ => ?_) fun _ => rfl⟩
  exact ⟨_, rfl, _, rfl, _, rfl, fun _ _ => does_letEnd _ _⟩

theorem does_letName (isGlobal : Bool) :
    (letName keyword isGlobal).Does d d (.letName d keyword isGlobal) := by
  refine ⟨_, _, rfl, rfl, fun name => .ite (fun _ => ?_) fun _ => rfl⟩
  exact ⟨_, rfl, does_letEquals isGlobal name.text⟩

theorem does_letForm : (letForm keyword).Does d d (.letForm d keyword) := by
  refine ⟨_, _, rfl, rfl, fun t => .ite (fun _ => ?_) fun _ => does_letName false⟩
  refine ⟨_, rfl, _, _, rfl, rfl, fun next => ?_⟩
  exact .ite (fun _ => does_letEquals false "global") fun _ => does_letName true

/-! ### Branches -/

theorem does_branches {next : List Node → Code} {pnext : List Node → Plan}
    (h : ∀ bs, (next bs).Does d n (pnext bs)) :
    (branches keyword next).Does d n (.branches n keyword pnext) :=
  ⟨_, rfl, _, rfl, fun bs _ => Does.ite (fun _ => rfl) fun _ => h bs⟩

theorem does_matchForm : (matchForm keyword).Does d d (.matchForm d keyword) :=
  ⟨_, rfl, _, _, rfl, rfl, fun _ => ⟨_, rfl, fun _ _ => does_branches fun _ => ⟨rfl, rfl⟩⟩⟩

theorem does_condForm : (condForm keyword).Does d d (.condForm d keyword) :=
  does_branches fun _ => ⟨rfl, rfl⟩

theorem does_branch : (branch keyword).Does d d (.branch d keyword) := by
  refine ⟨_, rfl, _, rfl, fun pattern _ => ⟨_, _, rfl, rfl, fun arrow => ?_⟩⟩
  refine .ite (fun _ => ⟨_, rfl, _, _, rfl, rfl, fun _ => ?_⟩) fun _ => rfl
  exact ⟨_, rfl, fun body _ => ⟨_, rfl, fun bs _ => ⟨rfl, rfl⟩⟩⟩

theorem does_sequence (first others : Goal) :
    (sequence first others).Does d d (.sequence first others d) :=
  ⟨_, rfl, fun _ _ => ⟨_, rfl, fun _ _ => ⟨rfl, rfl⟩⟩⟩

end Code

/-- The code of each rule does what its plan does, and leaves the counter as it was. -/
theorem Goal.does (goal : Goal) (d : Nat) : goal.code.Does d d (goal.plan d) := by
  cases goal with
  | program =>
    refine ⟨_, _, rfl, ⟨rfl, rfl⟩, fun t => ?_⟩
    exact .ite (fun _ => ⟨_, rfl, Code.does_just _⟩) fun _ => Code.does_sequence _ _
  | statement =>
    refine ⟨_, _, rfl, rfl, fun t => ?_⟩
    exact .ite (fun _ => ⟨_, rfl, Code.does_named t⟩) fun _ => Code.does_just _
  | element keywords =>
    refine ⟨_, _, rfl, rfl, fun t => ?_⟩
    dsimp only
    cases t.shape with
    | opener o => exact ⟨_, rfl, Code.does_opened o⟩
    | closer _ | separator => exact rfl
    | word =>
      cases keywords with
      | false => exact Code.does_word id
      | true =>
        cases t.keyword? with
        | some k => exact ⟨_, rfl, Code.does_just _⟩
        | none => exact Code.does_word id
  | keywordForm k keyword =>
    cases k with
    | letWord => exact Code.does_letForm
    | matchWord => exact Code.does_matchForm
    | condWord => exact Code.does_condForm
  | items o opening quoted first =>
    refine ⟨_, _, rfl, rfl, fun t => ?_⟩
    dsimp only
    cases t.shape with
    | closer k => exact .ite (fun _ => ⟨_, rfl, rfl, rfl⟩) fun _ => rfl
    | opener _ | separator | word => exact Code.does_sequence _ _
  | dataElement =>
    refine ⟨_, _, rfl, rfl, fun t => ?_⟩
    dsimp only
    cases t.shape with
    | opener o =>
      cases o with
      | brace => exact rfl
      | paren | bracket | quotedParen | quotedBracket => exact ⟨_, rfl, Code.does_dataList _⟩
    | separator => exact rfl
    | closer _ | word => exact Code.does_word Node.quote
  | functionBody opening =>
    refine ⟨_, _, rfl, rfl, fun t => ?_⟩
    refine .ite (fun _ => ⟨_, rfl, Code.does_block fun _ => ⟨rfl, rfl⟩⟩) fun _ => ?_
    exact ⟨_, rfl, _, rfl, fun _ _ => ⟨rfl, rfl⟩⟩
  | statements opening =>
    refine ⟨_, _, rfl, rfl, fun t => ?_⟩
    dsimp only
    cases t.shape with
    | separator => exact ⟨_, rfl, Code.does_just _⟩
    | closer k =>
      cases k with
      | brace => exact ⟨_, rfl, rfl, rfl⟩
      | paren | bracket => exact Code.does_sequence _ _
    | opener _ | word => exact Code.does_sequence _ _
  | bareCall head => exact ⟨_, rfl, _, rfl, fun _ _ => ⟨rfl, rfl⟩⟩
  | bareArgs head =>
    refine ⟨_, _, rfl, rfl, fun t => ?_⟩
    dsimp only
    cases t.shape with
    | separator => exact ⟨_, rfl, rfl, rfl⟩
    | closer _ => exact rfl
    | opener _ | word => exact Code.does_sequence _ _
  | letValue keyword =>
    refine ⟨_, _, rfl, rfl, fun t => .ite (fun _ => ?_) fun _ => Code.does_just _⟩
    refine ⟨_, rfl, _, _, rfl, Code.does_named t, fun next => ?_⟩
    exact .ite (fun _ => Code.does_lone t) fun _ => Code.does_named t
  | branchList keyword =>
    refine ⟨_, _, rfl, rfl, fun t => ?_⟩
    refine .ite (fun _ => ⟨_, rfl, rfl, rfl⟩) fun _ => ?_
    refine .ite (fun _ => ⟨_, rfl, Code.does_branch⟩) fun _ => ?_
    exact Code.Does.ite (fun _ => ⟨rfl, rfl⟩) fun _ => rfl
  | pattern =>
    refine ⟨_, _, rfl, rfl, fun t => ?_⟩
    dsimp only
    cases t.shape with
    | opener o =>
      cases o with
      | paren | bracket =>
        exact ⟨_, rfl, Code.does_delimited _ false fun items => Code.does_callOf items⟩
      | quotedParen | quotedBracket | brace => exact Code.does_just _
    | closer _ | separator | word => exact Code.does_just _

/-! ## Runs of the machine -/

/-- The outcome of a plan, as the machine gives it. -/
def Result.answer : Result → Except Stop (List Node)
  | .ok (nodes, _) => .ok nodes
  | .error f => .error (.fault f.fault)

/-- The counter after an outcome that leaves it at `d` if there are nodes. -/
def Result.counter (d : Nat) : Result → Nat
  | .ok _ => d
  | .error f => f.depth

/-- How a cursor can change while the machine reads: it moves forward, but not past the end of the
tokens, and its counter is not raised over the bound. -/
structure Cursor.Moves (tokens : List Token) (maxDepth : Nat) (k k' : Cursor) : Prop where
  forward : k.position ≤ k'.position
  inside : k'.position ≤ max k.position tokens.length
  bounded : k'.peak ≤ max k.peak maxDepth

namespace Cursor.Moves

variable {tokens : List Token} {maxDepth : Nat} {k k' k'' : Cursor}

theorem refl : Moves tokens maxDepth k k :=
  ⟨Nat.le_refl _, Nat.le_max_left _ _, Nat.le_max_left _ _⟩

theorem trans (h : Moves tokens maxDepth k k') (h' : Moves tokens maxDepth k' k'') :
    Moves tokens maxDepth k k'' := by
  obtain ⟨hforward, hinside, hbounded⟩ := h
  obtain ⟨hforward', hinside', hbounded'⟩ := h'
  exact ⟨by omega, by omega, by omega⟩

theorem advanced (h : k.position < tokens.length) : Moves tokens maxDepth k k.advanced :=
  ⟨Nat.le_succ _, by simp only [Cursor.advanced]; omega, Nat.le_max_left _ _⟩

theorem entered (h : k.depth < maxDepth) : Moves tokens maxDepth k k.entered :=
  ⟨Nat.le_refl _, Nat.le_max_left _ _, by simp only [Cursor.entered]; omega⟩

theorem left : Moves tokens maxDepth k k.left :=
  ⟨Nat.le_refl _, Nat.le_max_left _ _, Nat.le_max_left _ _⟩

end Cursor.Moves

/-- From the cursor, the machine comes to the outcome of a plan: it ends where the tokens left over
start, with the counter at its value. -/
def Mirrors (tokens : List Token) (maxDepth d : Nat) (code : Code) (k : Cursor) (r : Result) :
    Prop :=
  ∃ k', Ends tokens maxDepth code k r.answer k' ∧ k.Moves tokens maxDepth k' ∧
    tokens.drop k'.position = r.rest ∧ k'.depth = r.counter d

/-- Whatever code does what the plan does comes to its outcome. -/
def Mirrored (tokens : List Token) (maxDepth : Nat) (p : Plan) (ts : List Token) (r : Result) :
    Prop :=
  ∀ d code k, code.Does d k.depth p → tokens.drop k.position = ts →
    Mirrors tokens maxDepth d code k r

/-- Code that starts with a step that plans do not have. -/
def Code.isSilent : Code → Bool
  | .leave _ | .level _ | .cut .. => true
  | _ => false

section Mirrored

variable {tokens : List Token} {maxDepth d n : Nat} {p : Plan} {ts : List Token} {r : Result}
variable {code : Code} {k : Cursor}

/-- Steps that plans do not have can be passed over. -/
theorem Mirrored.of_loud
    (h : ∀ d code k, code.isSilent = false → code.Does d k.depth p → tokens.drop k.position = ts →
      Mirrors tokens maxDepth d code k r) : Mirrored tokens maxDepth p ts r := by
  intro d code
  induction code with
  | leave next ih =>
    intro k hdoes hts
    obtain ⟨k', hends, hmoves, hrest⟩ := ih k.left hdoes hts
    exact ⟨k', .leave hends, Cursor.Moves.left.trans hmoves, hrest⟩
  | level next ih =>
    intro k hdoes hts
    obtain ⟨k', hends, hmoves⟩ := ih k.depth k hdoes hts
    exact ⟨k', .level hends, hmoves⟩
  | cut text first last next ih =>
    rintro k ⟨part, hcut, hdoes⟩ hts
    obtain ⟨k', hends, hmoves⟩ := ih part k hdoes hts
    exact ⟨k', .cut hcut hends, hmoves⟩
  | _ => exact fun k => h d _ k rfl

namespace Code.Does

theorem of_give {nodes : List Node} (hloud : code.isSilent = false)
    (h : code.Does d n (.give nodes)) : code = .give nodes ∧ n = d := by
  cases code with
  | give nodes' =>
    obtain ⟨rfl, hp⟩ := h
    cases hp
    exact ⟨rfl, rfl⟩
  | leave | level | cut => cases hloud
  | _ => simp [Does] at h

theorem of_refuse {depth line : Nat} {cause : SyntaxCause} (hloud : code.isSilent = false)
    (h : code.Does d n (.refuse depth line cause)) : code = .fail line cause ∧ n = depth := by
  cases code with
  | fail line' cause' =>
    cases h
    exact ⟨rfl, rfl⟩
  | leave | level | cut => cases hloud
  | _ => simp [Does] at h

theorem of_refuseAtEnd {depth : Nat} {cause : SyntaxCause} (hloud : code.isSilent = false)
    (h : code.Does d n (.refuseAtEnd depth cause)) : code = .failAtEnd cause ∧ n = depth := by
  cases code with
  | failAtEnd cause' =>
    cases h
    exact ⟨rfl, rfl⟩
  | leave | level | cut => cases hloud
  | _ => simp [Does] at h

theorem of_peek {pEnd : Plan} {pnext : Token → Plan} (hloud : code.isSilent = false)
    (h : code.Does d n (.peek pEnd pnext)) :
    ∃ atEnd next, code = .peek atEnd next ∧ atEnd.Does d n pEnd ∧
      ∀ t, (next t).Does d n (pnext t) := by
  cases code with
  | peek atEnd next =>
    obtain ⟨_, _, hp, hatEnd, hnext⟩ := h
    cases hp
    exact ⟨atEnd, next, rfl, hatEnd, hnext⟩
  | leave | level | cut => cases hloud
  | _ => simp [Does] at h

theorem of_shift {pnext : Plan} (hloud : code.isSilent = false)
    (h : code.Does d n (.shift pnext)) : ∃ next, code = .advance next ∧ next.Does d n pnext := by
  cases code with
  | advance next =>
    obtain ⟨_, hp, hnext⟩ := h
    cases hp
    exact ⟨next, rfl, hnext⟩
  | leave | level | cut => cases hloud
  | _ => simp [Does] at h

theorem of_deeper {opening : Token} {depth : Nat} {pnext : Plan} (hloud : code.isSilent = false)
    (h : code.Does d n (.deeper opening depth pnext)) :
    n = depth ∧ ∃ next, code = .enter opening next ∧ next.Does d (n + 1) pnext := by
  cases code with
  | enter opening' next =>
    obtain ⟨_, hp, hnext⟩ := h
    cases hp
    exact ⟨rfl, next, rfl, hnext⟩
  | leave | level | cut => cases hloud
  | _ => simp [Does] at h

theorem of_read {goal : Goal} {depth : Nat} {pnext : List Node → Nat → Plan}
    (hloud : code.isSilent = false) (h : code.Does d n (.read goal depth pnext)) :
    n = depth ∧ ∃ next, code = .call goal next ∧
      ∀ nodes count, (next nodes count).Does d n (pnext nodes count) := by
  cases code with
  | call goal' next =>
    obtain ⟨_, hp, hnext⟩ := h
    cases hp
    exact ⟨rfl, next, rfl, hnext⟩
  | leave | level | cut => cases hloud
  | _ => simp [Does] at h

end Code.Does

theorem getElem?_of_drop {i : Nat} (h : tokens.drop i = ts) : tokens[i]? = ts.head? := by
  rw [← h, List.head?_drop]

theorem lt_length_of_drop {i : Nat} {t : Token} (h : tokens.drop i = t :: ts) :
    i < tokens.length := by
  have hlength := congrArg List.length h
  simp only [List.length_drop, List.length_cons] at hlength
  omega

/-- What comes of a plan comes of all code that does the same. -/
theorem Runs.mirrored (h : Runs ⟨maxDepth, lastLine tokens⟩ p ts r) :
    Mirrored tokens maxDepth p ts r := by
  induction h with
  | give =>
    refine .of_loud fun d code k hloud hdoes hts => ?_
    obtain ⟨rfl, hdepth⟩ := hdoes.of_give hloud
    exact ⟨k, .give, .refl, hts, hdepth⟩
  | refuse =>
    refine .of_loud fun d code k hloud hdoes hts => ?_
    obtain ⟨rfl, hdepth⟩ := hdoes.of_refuse hloud
    exact ⟨k, .fail, .refl, hts, hdepth⟩
  | refuseAtEnd =>
    refine .of_loud fun d code k hloud hdoes hts => ?_
    obtain ⟨rfl, hdepth⟩ := hdoes.of_refuseAtEnd hloud
    exact ⟨k, .failAtEnd, .refl, hts, hdepth⟩
  | peekEnd _ ih =>
    refine .of_loud fun d code k hloud hdoes hts => ?_
    obtain ⟨atEnd, next, rfl, hatEnd, -⟩ := hdoes.of_peek hloud
    obtain ⟨k', hends, hk'⟩ := ih d atEnd k hatEnd hts
    exact ⟨k', .peekEnd (getElem?_of_drop hts) hends, hk'⟩
  | @peek _ _ t _ _ _ ih =>
    refine .of_loud fun d code k hloud hdoes hts => ?_
    obtain ⟨atEnd, next, rfl, -, hnext⟩ := hdoes.of_peek hloud
    obtain ⟨k', hends, hk'⟩ := ih d (next t) k (hnext t) hts
    exact ⟨k', .peek (getElem?_of_drop hts) hends, hk'⟩
  | @shift _ _ ts _ _ ih =>
    refine .of_loud fun d code k hloud hdoes hts => ?_
    obtain ⟨next, rfl, hnext⟩ := hdoes.of_shift hloud
    have hlt := lt_length_of_drop hts
    have hrest : tokens.drop k.advanced.position = ts := by
      rw [Cursor.advanced, ← List.tail_drop, hts, List.tail_cons]
    obtain ⟨k', hends, hmoves, hk'⟩ := ih d next k.advanced hnext hrest
    exact ⟨k', .advance hlt hends, (Cursor.Moves.advanced hlt).trans hmoves, hk'⟩
  | deeper hlt _ ih =>
    refine .of_loud fun d code k hloud hdoes hts => ?_
    obtain ⟨rfl, next, rfl, hnext⟩ := hdoes.of_deeper hloud
    obtain ⟨k', hends, hmoves, hk'⟩ := ih d next k.entered hnext hts
    exact ⟨k', .enter hlt hends, (Cursor.Moves.entered hlt).trans hmoves, hk'⟩
  | tooDeep hlt =>
    refine .of_loud fun d code k hloud hdoes hts => ?_
    obtain ⟨rfl, next, rfl, -⟩ := hdoes.of_deeper hloud
    exact ⟨k, .tooDeep hlt, .refl, hts, rfl⟩
  | @readOk goal _ _ nodes ts rest _ _ _ ih ihnext =>
    refine .of_loud fun d code k hloud hdoes hts => ?_
    obtain ⟨rfl, next, rfl, hnext⟩ := hdoes.of_read hloud
    obtain ⟨k', hends, hmoves, hrest, hdepth⟩ := ih k.depth goal.code k (goal.does k.depth) hts
    have hcount : ts.length - rest.length = k'.position - k.position := by
      have hlength := congrArg List.length hts
      have hlength' := congrArg List.length hrest
      simp only [List.length_drop, Result.rest] at hlength hlength'
      have hforward := hmoves.forward
      have hinside := hmoves.inside
      omega
    have hdoes' := hnext nodes (k'.position - k.position)
    have hcounter : k'.depth = k.depth := hdepth
    rw [hcount] at ihnext
    rw [← hcounter] at hdoes'
    obtain ⟨k'', hends', hmoves', hk''⟩ := ihnext d _ k' hdoes' hrest
    exact ⟨k'', .callOk hends hmoves.forward hends', hmoves.trans hmoves', hk''⟩
  | @readError goal _ _ _ _ _ ih =>
    refine .of_loud fun d code k hloud hdoes hts => ?_
    obtain ⟨rfl, next, rfl, -⟩ := hdoes.of_read hloud
    obtain ⟨k', hends, hk'⟩ := ih k.depth goal.code k (goal.does k.depth) hts
    exact ⟨k', .callError hends, hk'⟩

end Mirrored

/-! ## Expressions -/

section Goals

variable {tokens : List Token} {maxDepth : Nat} {c : Context} {goal : Goal} {depth : Nat}
variable {ts rest : List Token} {nodes : List Node}

/-- From any cursor, the machine comes to what the functions of the reader make of the tokens. -/
theorem mirrors_run (tokens : List Token) (maxDepth : Nat) (goal : Goal) (k : Cursor) :
    Mirrors tokens maxDepth k.depth goal.code k
      (run ⟨maxDepth, lastLine tokens⟩ goal k.depth (tokens.drop k.position)) :=
  (runs_run _ goal k.depth _).mirrored k.depth goal.code k (goal.does k.depth) rfl

theorem single_shorter {bound : Nat} {outcome : Outcome Node bound}
    (h : single outcome = .ok (nodes, rest)) : rest.length < bound := by
  cases outcome with
  | error f => cases h
  | ok p =>
    cases h
    exact p.shorter

/-- Reads one expression, in statement position or not. -/
def Goal.isExpression : Goal → Bool
  | .statement | .element _ => true
  | _ => false

theorem run_shorter (hgoal : goal.isExpression = true)
    (h : run c goal depth ts = .ok (nodes, rest)) : rest.length < ts.length := by
  cases goal with
  | statement | element => exact single_shorter h
  | _ => cases hgoal

/-- An expression takes a token at least. -/
theorem Cursor.Moves.progress {k k' : Cursor} (h : k.Moves tokens maxDepth k')
    (hshorter : (tokens.drop k'.position).length < (tokens.drop k.position).length) :
    k.position < k'.position ∧ k'.position ≤ tokens.length := by
  simp only [List.length_drop] at hshorter
  have hforward := h.forward
  have hinside := h.inside
  exact ⟨by omega, by omega⟩

end Goals

/-! ## Calls -/

/-- What can be asked of a reader: all that is left, or the expression that starts at a token. -/
inductive Call where
  | program
  | expression (start : Nat)

/-- What is returned. -/
inductive Reply where
  | program (nodes : List Node)
  | expression (nodes : List Node) (endIndex line : Nat)

/-- What a reader answers to a call, and how it is left. -/
def answer (r : Reader) : Call → Except Fault Reply × Reader
  | .program => (r.readAll.1.map .program, r.readAll.2)
  | .expression start =>
    ((r.readAt start).1.map fun found => .expression [found.node] found.endIndex found.line,
      (r.readAt start).2)

/-- The answers to calls of one reader. -/
def answers (r : Reader) : List Call → List (Except Fault Reply)
  | [] => []
  | call :: calls => (r.answer call).1 :: answers (r.answer call).2 calls

namespace Call

def goal : Call → Goal
  | .program => .program
  | .expression _ => .statement

/-- Where the machine starts. -/
def start (k : Cursor) : Call → Cursor
  | .program => k
  | .expression index => { k with position := index, depth := 0 }

/-- What is returned for nodes that were read up to a cursor. -/
def reply (tokens : List Token) (k : Cursor) (nodes : List Node) : Call → Reply
  | .program => .program nodes
  | .expression index =>
    .expression nodes (k.position - 1) ((tokens[index]?.map (·.line)).getD 0)

end Call

/-- What the machine answers to calls, one after the other. -/
inductive Performs (tokens : List Token) (maxDepth : Nat) :
    List Call → Cursor → List (Except Stop Reply) → Cursor → Prop where
  | nil {k : Cursor} : Performs tokens maxDepth [] k [] k
  | cons {call : Call} {calls : List Call} {outcome : Except Stop (List Node)}
    {replies : List (Except Stop Reply)} {k k' k'' : Cursor} :
    Ends tokens maxDepth call.goal.code (call.start k) outcome k' →
      Performs tokens maxDepth calls k' replies k'' →
        Performs tokens maxDepth (call :: calls) k
          (outcome.map (fun nodes => call.reply tokens k' nodes) :: replies) k''

theorem Performs.unique {tokens : List Token} {maxDepth : Nat} {calls : List Call}
    {k k' k'' : Cursor} {replies replies' : List (Except Stop Reply)}
    (h : Performs tokens maxDepth calls k replies k')
    (h' : Performs tokens maxDepth calls k replies' k'') : replies = replies' ∧ k' = k'' := by
  induction h generalizing replies' k'' with
  | nil => cases h' with | nil => exact ⟨rfl, rfl⟩
  | cons hends _ ih =>
    cases h' with
    | cons hends' h' =>
      obtain ⟨rfl, rfl⟩ := hends.unique hends'
      obtain ⟨rfl, rfl⟩ := ih h'
      exact ⟨rfl, rfl⟩

/-- The reader that is where the machine is. -/
def Cursor.reader (tokens : List Token) (maxDepth : Nat) (k : Cursor) : Reader :=
  ⟨tokens, tokens.drop k.position, k.depth, maxDepth⟩

section Calls

variable {tokens : List Token} {maxDepth : Nat}

/-- From the cursor, the machine answers the call like the reader that is there, and the two are
left at the same place. -/
def Agrees (tokens : List Token) (maxDepth : Nat) (call : Call) (k : Cursor) : Prop :=
  ∃ outcome k', Ends tokens maxDepth call.goal.code (call.start k) outcome k' ∧
    k'.peak ≤ max k.peak maxDepth ∧
    outcome.map (fun nodes => call.reply tokens k' nodes) =
      ((k.reader tokens maxDepth).answer call).1.mapError .fault ∧
    ((k.reader tokens maxDepth).answer call).2 = k'.reader tokens maxDepth

/-- Where the outcome is that of the rule, the answer has to be checked only at the cursor where
the tokens left over start. -/
theorem Agrees.of_mirrors {call : Call} {k : Cursor} {result : Result}
    (hmirrors : Mirrors tokens maxDepth (call.start k).depth call.goal.code (call.start k) result)
    (hreply : ∀ k', (call.start k).Moves tokens maxDepth k' →
      tokens.drop k'.position = result.rest →
        result.answer.map (fun nodes => call.reply tokens k' nodes) =
          ((k.reader tokens maxDepth).answer call).1.mapError .fault)
    (hleft : ((k.reader tokens maxDepth).answer call).2 =
      ⟨tokens, result.rest, result.counter (call.start k).depth, maxDepth⟩) :
    Agrees tokens maxDepth call k := by
  obtain ⟨k', hends, hmoves, hrest, hdepth⟩ := hmirrors
  have hpeak : (call.start k).peak = k.peak := by
    cases call with
    | program | expression => rfl
  refine ⟨_, k', hends, hpeak ▸ hmoves.bounded, hreply k' hmoves hrest, ?_⟩
  rw [hleft, Cursor.reader, hrest, hdepth]

theorem readAll_of_program {r : Reader} {nodes : List Node}
    (h : program r.context r.depth r.rest = .ok nodes) :
    r.readAll = (.ok nodes, { r with rest := [] }) := by
  rw [readAll, h]

theorem readAll_of_failure {r : Reader} {f : Failure}
    (h : program r.context r.depth r.rest = .error f) :
    r.readAll = (.error f.fault, { r with rest := f.rest, depth := f.depth }) := by
  rw [readAll, h]

theorem agrees_program (k : Cursor) : Agrees tokens maxDepth .program k := by
  have hmirrors := mirrors_run tokens maxDepth .program k
  rw [run] at hmirrors
  cases hprogram : program ⟨maxDepth, lastLine tokens⟩ k.depth (tokens.drop k.position) with
  | ok nodes =>
    rw [hprogram] at hmirrors
    have hread := readAll_of_program (r := k.reader tokens maxDepth) hprogram
    refine .of_mirrors hmirrors (fun k' _ _ => ?_) ?_
    · rw [answer, hread]
      rfl
    · rw [answer, hread]
      rfl
  | error f =>
    rw [hprogram] at hmirrors
    have hread := readAll_of_failure (r := k.reader tokens maxDepth) hprogram
    refine .of_mirrors hmirrors (fun k' _ _ => ?_) ?_
    · rw [answer, hread]
      rfl
    · rw [answer, hread]
      rfl

theorem agrees_expression (start : Nat) (k : Cursor) :
    Agrees tokens maxDepth (.expression start) k := by
  have hmirrors := mirrors_run tokens maxDepth .statement ((Call.expression start).start k)
  rw [run] at hmirrors
  cases hstatement : statement ⟨maxDepth, lastLine tokens⟩ 0 (tokens.drop start) with
  | ok p =>
    have hmirrors : Mirrors tokens maxDepth 0 Goal.statement.code
        ((Call.expression start).start k) (single (.ok p)) := by
      rw [← hstatement]
      exact hmirrors
    have hread := readAt_of_statement (r := k.reader tokens maxDepth) hstatement
    refine .of_mirrors hmirrors (fun k' hmoves hrest => ?_) ?_
    · have hrest : tokens.drop k'.position = p.rest := hrest
      have hshorter := p.shorter
      rw [← hrest] at hshorter
      have hinside := (hmoves.progress hshorter).2
      have hindex : tokens.length - p.rest.length = k'.position := by
        rw [← hrest, List.length_drop]
        omega
      rw [answer, hread]
      simp only [Cursor.reader, hindex]
      rfl
    · rw [answer, hread]
      rfl
  | error f =>
    have hmirrors : Mirrors tokens maxDepth 0 Goal.statement.code
        ((Call.expression start).start k) (.error f) := by
      have hsingle : single (.error f : Outcome Node (tokens.drop start).length) = .error f := rfl
      rw [← hsingle, ← hstatement]
      exact hmirrors
    have hread := readAt_of_failure (r := k.reader tokens maxDepth) hstatement
    refine .of_mirrors hmirrors (fun k' _ _ => ?_) ?_
    · rw [answer, hread]
      rfl
    · rw [answer, hread]
      rfl

theorem agrees (call : Call) (k : Cursor) : Agrees tokens maxDepth call k := by
  cases call with
  | program => exact agrees_program k
  | expression start => exact agrees_expression start k

/-- The machine answers all calls like the reader that is where it is. -/
theorem performs_answers (tokens : List Token) (maxDepth : Nat) (calls : List Call) (k : Cursor) :
    ∃ k', Performs tokens maxDepth calls k
        (((k.reader tokens maxDepth).answers calls).map (·.mapError .fault)) k' ∧
      k'.peak ≤ max k.peak maxDepth := by
  induction calls generalizing k with
  | nil => exact ⟨k, .nil, Nat.le_max_left _ _⟩
  | cons call calls ih =>
    obtain ⟨outcome, k', hends, hpeak, hreply, hreader⟩ : Agrees tokens maxDepth call k :=
      agrees call k
    obtain ⟨k'', hperforms, hpeak'⟩ := ih k'
    refine ⟨k'', ?_, by omega⟩
    rw [answers, List.map_cons, ← hreply, hreader]
    exact .cons hends hperforms

/-- **The reader is total and makes progress.** Whatever calls one reader gets, whole programs and
expressions at any index, the machine comes to one end: it answers each call like the reader, with
nodes or with a fault, and its counter was never over the bound. And from any cursor, whatever is to
be read, the machine comes to one end and never gets outside; an expression that it reads moves the
position forward and not past the end of the tokens, and leaves the counter as it was. -/
theorem machine_total (tokens : List Token) (maxDepth : Nat) :
    (∀ calls, ∃ k', k'.peak ≤ maxDepth ∧
      ∀ replies k'', Performs tokens maxDepth calls .fresh replies k'' ↔
        replies = ((ofTokens tokens maxDepth).answers calls).map (·.mapError .fault) ∧ k'' = k') ∧
    ∀ (goal : Goal) (k : Cursor), ∃ outcome k',
      (∀ outcome' k'', Ends tokens maxDepth goal.code k outcome' k'' ↔
        outcome' = outcome ∧ k'' = k') ∧
      outcome ≠ .error .outside ∧ k'.peak ≤ max k.peak maxDepth ∧
      (goal.isExpression = true → ∀ nodes, outcome = .ok nodes →
        k.position < k'.position ∧ k'.position ≤ tokens.length ∧ k'.depth = k.depth) := by
  constructor
  · intro calls
    obtain ⟨k', hperforms, hpeak⟩ := performs_answers tokens maxDepth calls .fresh
    refine ⟨k', by simpa [Cursor.fresh] using hpeak, fun replies k'' => ⟨fun h => ?_, ?_⟩⟩
    · exact h.unique hperforms
    · rintro ⟨rfl, rfl⟩
      exact hperforms
  · intro goal k
    obtain ⟨k', hends, hmoves, hrest, hdepth⟩ := mirrors_run tokens maxDepth goal k
    refine ⟨_, k', fun outcome' k'' => ⟨fun h => h.unique hends, ?_⟩, ?_, hmoves.bounded, ?_⟩
    · rintro ⟨rfl, rfl⟩
      exact hends
    · cases run ⟨maxDepth, lastLine tokens⟩ goal k.depth (tokens.drop k.position) with
      | ok result => simp [Result.answer]
      | error f => simp [Result.answer]
    · intro hgoal nodes hnodes
      cases hrun : run ⟨maxDepth, lastLine tokens⟩ goal k.depth (tokens.drop k.position) with
      | error f =>
        rw [hrun] at hnodes
        cases hnodes
      | ok result =>
        rw [hrun] at hrest hdepth
        have hshorter := run_shorter hgoal hrun
        have hrest : tokens.drop k'.position = result.2 := hrest
        rw [← hrest] at hshorter
        obtain ⟨hforward, hinside⟩ := hmoves.progress hshorter
        exact ⟨hforward, hinside, hdepth⟩

end Calls

end ExprShell.Reader
