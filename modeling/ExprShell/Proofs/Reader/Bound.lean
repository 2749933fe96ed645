/-
The bound on nesting (`readAll_bounded`). A bound does nothing but cut off: a reading that does not
end in a complaint about it goes the same way under every larger bound (`Runs.raise`). And what is
read stays within it: each node is read at a depth that the bound allows, one level below the node
that holds it (`Goal.places_plan`), so no tree is higher than the bound (`Node.Stands.height_le`).
-/
import ExprShell.Proofs.Reader.CodeReadBack
import ExprShell.Proofs.Reader.Contract

namespace ExprShell

/-- The fault of something that is nested too deep. -/
def Fault.isTooDeep : Fault → Bool
  | .syntactic _ (.tooDeep _) => true
  | _ => false

/-! ## Depths -/

/-- The node was read at a depth, and all that is in it one level deeper, within a bound. -/
inductive Node.Stands (bound : Nat) : Nat → Node → Prop where
  | leaf {depth : Nat} {n : Node} : n.isLeaf = true → n.stamp.depth = depth → depth ≤ bound →
    Stands bound depth n
  | list {depth : Nat} {s : Stamp} {items : List Node} : s.depth = depth → depth < bound →
    (∀ n ∈ items, Stands bound (depth + 1) n) → Stands bound depth (.list s items)
  | function {depth : Nat} {s : Stamp} {params : List String} {body : List Node} :
    s.depth = depth → depth < bound → (∀ n ∈ body, Stands bound (depth + 1) n) →
      Stands bound depth (.function s params body)

namespace Node

theorem heightAll_le {bound : Nat} {ns : List Node} (h : ∀ n ∈ ns, n.height ≤ bound) :
    heightAll ns ≤ bound := by
  induction ns with
  | nil => exact Nat.zero_le _
  | cons n ns ih =>
    rw [List.forall_mem_cons] at h
    have hrest := ih h.2
    rw [heightAll]
    omega

/-- No tree reaches below the bound. -/
theorem Stands.height_le {bound depth : Nat} {n : Node} (h : Stands bound depth n) :
    depth + n.height ≤ bound := by
  induction h with
  | @leaf depth n hleaf _ hdepth =>
    have hheight : n.height = 0 := by
      cases n with
      | list | function => cases hleaf
      | _ => rfl
    omega
  | @list depth s items _ hdepth _ ih =>
    have hitems : heightAll items ≤ bound - (depth + 1) := by
      apply heightAll_le
      intro n hn
      have hheight := ih n hn
      omega
    rw [height]
    omega
  | @function depth s params body _ hdepth _ ih =>
    have hbody : heightAll body ≤ bound - (depth + 1) := by
      apply heightAll_le
      intro n hn
      have hheight := ih n hn
      omega
    rw [height]
    omega

end Node

namespace Reader

open Node (Stands)

/-- The depth at which a goal's nodes are read. -/
def Goal.level : Goal → Nat → Nat
  | .functionBody _, depth => depth + 1
  | _, depth => depth

/-- Where all that is read stands at the depth of its goal, so do the nodes that the plan gives. -/
def Plan.Places (bound level : Nat) : Plan → Prop
  | .give nodes => ∀ n ∈ nodes, Stands bound level n
  | .refuse .. | .refuseAtEnd .. => True
  | .peek atEnd next => atEnd.Places bound level ∧ ∀ t, (next t).Places bound level
  | .shift next => next.Places bound level
  | .deeper _ depth next => depth < bound → next.Places bound level
  | .read goal depth next =>
    depth ≤ bound ∧ ∀ nodes count, (∀ n ∈ nodes, Stands bound (goal.level depth) n) →
      (next nodes count).Places bound level

/-! ### Nodes -/

variable {bound depth : Nat}

theorem stands_nameAt (hdepth : depth ≤ bound) (name : String) :
    Stands bound depth (nameAt depth name) :=
  .leaf rfl rfl hdepth

theorem stands_callAt {items : List Node} (hdepth : depth < bound)
    (h : ∀ n ∈ items, Stands bound (depth + 1) n) : Stands bound depth (callAt depth items) :=
  .list rfl hdepth h

/-- A call of an operator. -/
theorem stands_operation {args : List Node} (hdepth : depth < bound) (name : String)
    (h : ∀ n ∈ args, Stands bound (depth + 1) n) :
    Stands bound depth (callAt depth (operatorAt (depth + 1) name :: args)) :=
  stands_callAt hdepth (List.forall_mem_cons.2 ⟨.leaf rfl rfl hdepth, h⟩)

theorem depth_of_atom {t : Token} {n : Node} (h : atom depth t = .ok n) :
    n.stamp.depth = depth := by
  unfold atom at h
  repeat' split at h
  all_goals cases h
  all_goals rfl

theorem depth_quote (n : Node) : n.quote.stamp.depth = n.stamp.depth := by
  cases n with
  | _ => rfl

/-- The head of a call stays where it was read when it is made an operator. -/
theorem stands_callItems {items items' : List Node} {level : Nat}
    (h : callItems items = .ok items') (hitems : ∀ n ∈ items, Stands bound level n) :
    ∀ n ∈ items', Stands bound level n := by
  unfold callItems at h
  split at h
  · cases h
  · next head args =>
    split at h
    · next s name =>
      split at h
      · cases h
      · cases h
        rw [List.forall_mem_cons] at hitems ⊢
        refine ⟨?_, hitems.2⟩
        cases hitems.1 with
        | leaf _ hstamp hlevel => exact .leaf rfl hstamp hlevel
    · cases h
      exact hitems
    · split at h
      · cases h
        exact hitems
      · cases h
    · cases h

theorem stands_boundItems {isGlobal : Bool} {name : String} {value : List Node}
    (hdepth : depth < bound) (h : ∀ n ∈ value, Stands bound (depth + 1) n) :
    Stands bound depth (callAt depth (Plan.boundItems (depth + 1) isGlobal name value)) := by
  have hflag : ∀ n ∈ (if isGlobal then [nameAt (depth + 1) "global"] else []),
      Stands bound (depth + 1) n := by
    cases isGlobal with
    | true => exact List.forall_mem_singleton.2 (stands_nameAt hdepth _)
    | false => exact List.forall_mem_nil _
  refine stands_operation hdepth _ (List.forall_mem_append.2 ⟨hflag, ?_⟩)
  exact List.forall_mem_cons.2 ⟨stands_nameAt hdepth _, h⟩

/-! ### Plans -/

namespace Plan

variable {level : Nat} {t opening keyword : Token}

theorem places_one {n : Node} (h : Stands bound level n) : Places bound level (.give [n]) :=
  List.forall_mem_singleton.2 h

theorem places_just {goal : Goal} (hdepth : depth ≤ bound) (hlevel : goal.level depth = level) :
    (just goal depth).Places bound level := by
  refine ⟨hdepth, fun nodes _ hnodes => ?_⟩
  rw [hlevel] at hnodes
  exact hnodes

theorem places_word {change : Node → Node} (hdepth : depth ≤ bound)
    (hleaf : ∀ n, n.isLeaf = true → (change n).isLeaf = true)
    (hstamp : ∀ n, (change n).stamp.depth = n.stamp.depth) :
    (word depth t change).Places bound depth := by
  unfold word Places
  cases hatom : atom depth t with
  | error cause => trivial
  | ok n =>
    refine places_one (.leaf (hleaf n (isLeaf_atom hatom)) ?_ hdepth)
    rw [hstamp, depth_of_atom hatom]

theorem places_call {items : List Node} (hdepth : depth < bound)
    (h : ∀ n ∈ items, Stands bound (depth + 1) n) :
    (call depth opening items).Places bound depth := by
  unfold call
  cases hitems : callItems items with
  | error cause => trivial
  | ok items' => exact places_one (stands_callAt hdepth (stands_callItems hitems h))

theorem places_delimited {o : Opener} {quoted : Bool} {next : List Node → Plan}
    (h : depth < bound → ∀ items, (∀ n ∈ items, Stands bound (depth + 1) n) →
      (next items).Places bound level) :
    (delimited depth o opening quoted next).Places bound level :=
  fun hdepth => ⟨hdepth, fun items _ hitems => h hdepth items hitems⟩

theorem places_dataList (o : Opener) : (dataList depth o opening).Places bound depth :=
  places_delimited fun hdepth _ hitems => places_one (.list rfl hdepth hitems)

theorem places_listExpression (o : Opener) :
    (listExpression depth o opening).Places bound depth := by
  refine places_delimited fun hdepth items hitems => ⟨places_call hdepth hitems, fun arrow => ?_⟩
  dsimp only
  split
  · show (function depth opening items).Places bound depth
    unfold Plan.function
    cases paramNames items with
    | error cause => trivial
    | ok params =>
      refine ⟨Nat.le_of_lt hdepth, fun body _ hbody => ?_⟩
      exact places_one (.function rfl hdepth hbody)
  · exact places_call hdepth hitems

theorem places_block {next : List Node → Plan}
    (h : depth < bound → ∀ body, (∀ n ∈ body, Stands bound (depth + 1) n) →
      (next body).Places bound level) :
    (block depth opening next).Places bound level :=
  fun hdepth => ⟨hdepth, fun body _ hbody => h hdepth body hbody⟩

theorem places_opened (o : Opener) : (opened depth opening o).Places bound depth := by
  cases o with
  | paren | bracket => exact places_listExpression _
  | quotedParen | quotedBracket => exact places_dataList _
  | brace =>
    refine places_block fun hdepth body hbody => ?_
    exact places_one (stands_operation hdepth _ hbody)

theorem places_named (hdepth : depth ≤ bound) : (named depth t).Places bound depth := by
  unfold named
  cases t.keyword? with
  | some k => exact places_just hdepth rfl
  | none =>
    refine ⟨places_one (stands_nameAt hdepth _), fun next => ?_⟩
    dsimp only
    split
    · exact places_one (stands_nameAt hdepth _)
    · exact places_just hdepth rfl

theorem places_letEnd {single : Bool} {node : Node} (h : Stands bound depth node) :
    (letEnd depth keyword single node).Places bound depth := by
  refine ⟨?_, fun next => ?_⟩
  · split
    · trivial
    · exact places_one h
  · dsimp only
    split
    · exact places_one h
    · split
      · trivial
      · exact places_one h

theorem places_letEquals {isGlobal : Bool} {name : String} :
    (letEquals depth keyword isGlobal name).Places bound depth := by
  refine ⟨trivial, fun eq => ?_⟩
  dsimp only
  split
  · intro hdepth
    refine ⟨hdepth, fun value _ hvalue => places_letEnd ?_⟩
    exact stands_boundItems hdepth hvalue
  · trivial

theorem places_letName {isGlobal : Bool} :
    (letName depth keyword isGlobal).Places bound depth := by
  refine ⟨trivial, fun name => ?_⟩
  dsimp only
  split
  · exact places_letEquals
  · trivial

theorem places_letForm : (letForm depth keyword).Places bound depth := by
  refine ⟨trivial, fun t => ?_⟩
  dsimp only
  split
  · refine ⟨trivial, fun next => ?_⟩
    dsimp only
    split
    · exact places_letEquals
    · exact places_letName
  · exact places_letName

theorem places_branches {next : List Node → Plan}
    (h : depth < bound → ∀ bs, (∀ n ∈ bs, Stands bound (depth + 1) n) →
      (next bs).Places bound level) :
    (branches depth keyword next).Places bound level := by
  intro hdepth
  refine ⟨hdepth, fun bs _ hbs => ?_⟩
  dsimp only
  split
  · trivial
  · exact h hdepth bs hbs

theorem places_matchForm : (matchForm depth keyword).Places bound depth := by
  intro hdepth
  refine ⟨trivial, fun _ => ⟨hdepth, fun value _ hvalue => ?_⟩⟩
  refine places_branches fun _ bs hbs => places_one (stands_operation hdepth _ ?_)
  exact List.forall_mem_append.2 ⟨hvalue, hbs⟩

theorem places_branch : (branch depth keyword).Places bound depth := by
  intro hdepth
  refine ⟨hdepth, fun pattern _ hpattern => ⟨trivial, fun arrow => ?_⟩⟩
  dsimp only
  split
  · refine ⟨trivial, fun _ => ⟨hdepth, fun body _ hbody => ⟨Nat.le_of_lt hdepth, ?_⟩⟩⟩
    intro bs _ hbs
    refine List.forall_mem_cons.2 ⟨.list rfl hdepth ?_, hbs⟩
    exact List.forall_mem_append.2 ⟨hpattern, hbody⟩
  · trivial

theorem places_sequence {first others : Goal} (hdepth : depth ≤ bound)
    (hfirst : first.level depth = level) (hothers : others.level depth = level) :
    (sequence first others depth).Places bound level := by
  refine ⟨hdepth, fun n _ hn => ⟨hdepth, fun ns _ hns => ?_⟩⟩
  rw [hfirst] at hn
  rw [hothers] at hns
  exact List.forall_mem_append.2 ⟨hn, hns⟩

end Plan

/-! ### Rules -/

/-- Every goal's nodes stand at its depth. -/
theorem Goal.places_plan (goal : Goal) (hdepth : depth ≤ bound) :
    (goal.plan depth).Places bound (goal.level depth) := by
  have hnone : ∀ n ∈ ([] : List Node), Stands bound (goal.level depth) n := List.forall_mem_nil _
  cases goal with
  | program =>
    refine ⟨hnone, fun t => ?_⟩
    dsimp only
    split
    · exact Plan.places_just hdepth rfl
    · exact Plan.places_sequence hdepth rfl rfl
  | statement =>
    refine ⟨trivial, fun t => ?_⟩
    dsimp only
    split
    · exact Plan.places_named hdepth
    · exact Plan.places_just hdepth rfl
  | element keywords =>
    refine ⟨trivial, fun t => ?_⟩
    dsimp only
    split
    · exact Plan.places_opened _
    · trivial
    · trivial
    · split
      · exact Plan.places_just hdepth rfl
      · exact Plan.places_word hdepth (fun _ h => h) fun _ => rfl
  | keywordForm k keyword =>
    cases k with
    | letWord => exact Plan.places_letForm
    | matchWord => exact Plan.places_matchForm
    | condWord =>
      exact Plan.places_branches fun hdepth _ hbs => Plan.places_one (stands_operation hdepth _ hbs)
  | items o opening quoted first =>
    refine ⟨trivial, fun t => ?_⟩
    dsimp only
    split
    · split
      · exact hnone
      · trivial
    · cases quoted with
      | true => exact Plan.places_sequence hdepth rfl rfl
      | false => exact Plan.places_sequence hdepth rfl rfl
  | dataElement =>
    refine ⟨trivial, fun t => ?_⟩
    dsimp only
    split
    · trivial
    · trivial
    · exact Plan.places_dataList _
    · exact Plan.places_word hdepth (fun _ => isLeaf_quote) depth_quote
  | functionBody opening =>
    refine ⟨trivial, fun t => ?_⟩
    dsimp only
    split
    · exact Plan.places_block fun _ _ hbody => hbody
    · intro hlt
      exact Plan.places_just hlt rfl
  | statements opening =>
    refine ⟨trivial, fun t => ?_⟩
    dsimp only
    split
    · exact Plan.places_just hdepth rfl
    · exact hnone
    · exact Plan.places_sequence hdepth rfl rfl
  | bareCall head =>
    intro hlt
    exact ⟨hlt, fun args _ hargs => Plan.places_one (stands_operation hlt _ hargs)⟩
  | bareArgs head =>
    refine ⟨trivial, fun t => ?_⟩
    dsimp only
    split
    · exact hnone
    · trivial
    · exact Plan.places_sequence hdepth rfl rfl
  | letValue keyword =>
    refine ⟨trivial, fun t => ?_⟩
    dsimp only
    split
    · refine ⟨Plan.places_named hdepth, fun next => ?_⟩
      dsimp only
      split
      · exact Plan.places_one (stands_nameAt hdepth _)
      · exact Plan.places_named hdepth
    · exact Plan.places_just hdepth rfl
  | branchList keyword =>
    refine ⟨trivial, fun t => ?_⟩
    dsimp only
    split
    · exact hnone
    · split
      · exact Plan.places_branch
      · split
        · exact hnone
        · trivial
  | pattern =>
    refine ⟨trivial, fun t => ?_⟩
    dsimp only
    split
    · exact Plan.places_delimited fun hlt _ hitems => Plan.places_call hlt hitems
    · exact Plan.places_delimited fun hlt _ hitems => Plan.places_call hlt hitems
    · exact Plan.places_just hdepth rfl

/-! ## Runs -/

theorem Runs.places {c : Context} {p : Plan} {ts : List Token} {r : Result} (h : Runs c p ts r)
    {level : Nat} (hp : p.Places c.maxDepth level) {nodes : List Node} {rest : List Token}
    (hr : r = .ok (nodes, rest)) : ∀ n ∈ nodes, Stands c.maxDepth level n := by
  induction h generalizing level nodes rest with
  | give =>
    cases hr
    exact hp
  | refuse | refuseAtEnd | tooDeep | readError => cases hr
  | peekEnd _ ih => exact ih hp.1 hr
  | peek _ ih => exact ih (hp.2 _) hr
  | shift _ ih => exact ih hp hr
  | deeper hdepth _ ih => exact ih (hp hdepth) hr
  | @readOk goal depth _ _ _ _ _ _ _ ih ihnext =>
    exact ihnext (hp.2 _ _ (ih (goal.places_plan hp.1) rfl)) hr

/-- A larger bound changes nothing where the smaller one was not hit. -/
theorem Runs.raise {bound bound' line : Nat} {p : Plan} {ts : List Token} {r : Result}
    (h : Runs ⟨bound, line⟩ p ts r) (hle : bound ≤ bound')
    (hr : ∀ f, r = .error f → f.fault.isTooDeep = false) : Runs ⟨bound', line⟩ p ts r := by
  induction h with
  | give => exact .give
  | refuse => exact .refuse
  | refuseAtEnd => exact .refuseAtEnd
  | peekEnd _ ih => exact .peekEnd (ih hr)
  | peek _ ih => exact .peek (ih hr)
  | shift _ ih => exact .shift (ih hr)
  | deeper hdepth _ ih => exact .deeper (Nat.lt_of_lt_of_le hdepth hle) (ih hr)
  | tooDeep _ => cases hr _ rfl
  | readOk _ _ ih ihnext => exact .readOk (ih fun f hf => by cases hf) (ihnext hr)
  | readError _ ih => exact .readError (ih hr)

/-! ## Whole programs -/

/-- Of the bound, only the reader that is left has a trace. -/
theorem Result.delivered_fst (outcome : Result) (tokens : List Token) (maxDepth maxDepth' : Nat) :
    (outcome.delivered tokens maxDepth).1 = (outcome.delivered tokens maxDepth').1 := by
  cases outcome with
  | ok p => rfl
  | error f => rfl

/-- **The bound on nesting only cuts off.** Where a program is not refused as nested too deep, every
larger bound gives the same nodes or the same fault. Where it is read, no tree is higher than the
bound; lists and functions that hold nothing count like those that do. -/
theorem readAll_bounded (tokens : List Token) {bound bound' : Nat} (hle : bound ≤ bound') :
    ((∀ e, (ofTokens tokens bound).readAll.1 = .error e → e.isTooDeep = false) →
      (ofTokens tokens bound').readAll.1 = (ofTokens tokens bound).readAll.1) ∧
    ∀ nodes, (ofTokens tokens bound).readAll.1 = .ok nodes → ∀ n ∈ nodes, n.height ≤ bound := by
  constructor
  · intro hfault
    have hruns := runs_run ⟨bound, lastLine tokens⟩ .program 0 tokens
    have hread := readAll_of_runs hruns rfl
    have hshallow : ∀ f, run ⟨bound, lastLine tokens⟩ .program 0 tokens = .error f →
        f.fault.isTooDeep = false := by
      intro f hf
      apply hfault
      rw [hread, hf]
      rfl
    have hraised := hruns.raise hle hshallow
    rw [readAll_of_runs hraised rfl, hread]
    exact Result.delivered_fst _ _ _ _
  · intro nodes hnodes n hn
    have hruns := runs_of_readAll_ok (Prod.ext hnodes rfl)
    have hstands := hruns.places (Goal.program.places_plan (Nat.zero_le bound)) rfl n hn
    have hheight : 0 + n.height ≤ bound := hstands.height_le
    omega

/-- A call in a call, under the least bound that allows it and under a larger one. -/
theorem readAll_bounded_calls :
    let tokens : List Token := [⟨"(", 1⟩, ⟨"f", 1⟩, ⟨"(", 1⟩, ⟨"g", 1⟩, ⟨")", 1⟩, ⟨")", 1⟩]
    let outer := callAt 0 [operatorAt 1 "f", callAt 1 [operatorAt 2 "g"]]
    (ofTokens tokens 2).readAll.1 = .ok [outer] ∧ (ofTokens tokens 5).readAll.1 = .ok [outer] ∧
      outer.height = 2 ∧ outer.height ≤ 2 := by
  intro tokens outer
  have hinner : Runs ⟨2, 1⟩ ((Goal.items .paren ⟨"(", 1⟩ false true).plan 2)
      [⟨"g", 1⟩, ⟨")", 1⟩, ⟨")", 1⟩] (.ok ([nameAt 2 "g"], [⟨")", 1⟩])) :=
    .peek (.readOk (.peek (.shift .give)) (.readOk (.peek (.shift .give)) .give))
  have hcall : Runs ⟨2, 1⟩ ((Goal.items .paren ⟨"(", 1⟩ false false).plan 1)
      [⟨"(", 1⟩, ⟨"g", 1⟩, ⟨")", 1⟩, ⟨")", 1⟩] (.ok ([callAt 1 [operatorAt 2 "g"]], [])) :=
    .peek (.readOk (.peek (.shift (.deeper (by decide) (.readOk hinner (.peek .give)))))
      (.readOk (.peek (.shift .give)) .give))
  have hitems : Runs ⟨2, 1⟩ ((Goal.items .paren ⟨"(", 1⟩ false true).plan 1)
      [⟨"f", 1⟩, ⟨"(", 1⟩, ⟨"g", 1⟩, ⟨")", 1⟩, ⟨")", 1⟩]
      (.ok ([nameAt 1 "f", callAt 1 [operatorAt 2 "g"]], [])) :=
    .peek (.readOk (.peek (.shift .give)) (.readOk hcall .give))
  have hprogram : Runs ⟨2, 1⟩ (Goal.program.plan 0) tokens (.ok ([outer], [])) := by
    refine runs_program (by decide) (.peek (.just (.peek (.shift ?_))))
    exact .deeper (by decide) (.readOk hitems (.peekEnd .give))
  have hread : (ofTokens tokens 2).readAll.1 = .ok [outer] :=
    congrArg Prod.fst (readAll_of_runs hprogram rfl)
  have hle : 2 ≤ 5 := by decide
  have hbounded := readAll_bounded tokens hle
  have hfault : ∀ e, (ofTokens tokens 2).readAll.1 = .error e → e.isTooDeep = false := by
    intro e he
    rw [hread] at he
    cases he
  refine ⟨hread, ?_, rfl, hbounded.2 [outer] hread outer (List.mem_singleton_self outer)⟩
  rw [hbounded.1 hfault, hread]

end Reader

end ExprShell
