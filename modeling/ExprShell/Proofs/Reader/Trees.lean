/-
The trees that the reader gives (`readAll_trees`). A list that is not quoted is a call with a head,
or a branch behind the operator of a form with branches; operators stand nowhere but at the head of
a call; and inside quoted data everything is quoted data. The reader gives nodes of the role that
its goal asks for (`Goal.yields_plan`), and roles say the rest.
-/
import ExprShell.Proofs.Node.Role
import ExprShell.Proofs.Reader.Agreement

namespace ExprShell.Reader

/-! ## What the reader gives -/

open Node (Formed Role)

/-- What there is to be read. -/
def Goal.role : Goal → Role
  | .dataElement | .items _ _ true _ => .datum
  | .branchList _ => .branch
  | _ => .expression

/-- Reads one node, and not several. -/
def Goal.isOne : Goal → Bool
  | .statement | .element _ | .keywordForm .. | .dataElement | .bareCall _ | .letValue _
  | .pattern => true
  | .program | .items .. | .functionBody _ | .statements _ | .bareArgs _ | .branchList _ => false

/-- What a goal promises of the nodes it gives. -/
def Goal.Promises (goal : Goal) (nodes : List Node) : Prop :=
  (∀ n ∈ nodes, Formed goal.role n) ∧ (goal.isOne = true → ∃ n, nodes = [n])

/-- Where all goals keep their promises, the plan gives such nodes. -/
def Plan.Yields (post : List Node → Prop) : Plan → Prop
  | .give nodes => post nodes
  | .refuse .. | .refuseAtEnd .. => True
  | .peek atEnd next => atEnd.Yields post ∧ ∀ t, (next t).Yields post
  | .shift next => next.Yields post
  | .deeper _ _ next => next.Yields post
  | .read goal _ next => ∀ nodes count, goal.Promises nodes → (next nodes count).Yields post

/-! ### Nodes -/

theorem isWord_atom {depth : Nat} {t : Token} {n : Node} (h : atom depth t = .ok n) :
    n.isWord = true := by
  unfold atom at h
  repeat' split at h
  all_goals cases h
  all_goals rfl

theorem formed_quote {n : Node} (h : n.isWord = true) : Formed .datum n.quote := by
  cases n with
  | string | number | boolean | identifier => exact .quotedWord rfl rfl
  | _ => cases h

theorem formed_nameAt (depth : Nat) (name : String) : Formed .expression (nameAt depth name) :=
  .word rfl

/-- A call of an operator. -/
theorem formed_operation {depth : Nat} {name : String} {args : List Node}
    (h : ∀ n ∈ args, Formed .expression n) :
    Formed .expression (callAt depth (operatorAt (depth + 1) name :: args)) :=
  .call rfl .operator h

/-- A form with branches. -/
theorem formed_branching {depth : Nat} {k : Keyword} {args bs : List Node}
    (hk : k ≠ .letWord) (hargs : ∀ n ∈ args, Formed .expression n)
    (hbs : ∀ n ∈ bs, Formed .branch n) :
    Formed .expression (callAt depth (operatorAt (depth + 1) k.text :: (args ++ bs))) := by
  refine .branching rfl ?_ .operator hargs hbs
  cases k with
  | letWord => exact absurd rfl hk
  | matchWord | condWord => rfl

theorem formed_call {depth : Nat} {items items' : List Node} (h : callItems items = .ok items')
    (hitems : ∀ n ∈ items, Formed .expression n) : Formed .expression (callAt depth items') := by
  unfold callItems at h
  split at h
  · cases h
  · obtain ⟨hhead, hargs⟩ := List.forall_mem_cons.1 hitems
    split at h
    · split at h
      · cases h
      · cases h
        exact .call rfl .operator hargs
    · cases h
      exact .call rfl (.head rfl hhead) hargs
    · split at h
      · next hquoted =>
        cases h
        exact .call rfl (.head hquoted hhead) hargs
      · cases h
    · cases h

theorem formed_boundItems {depth : Nat} {isGlobal : Bool} {name : String} {value : List Node}
    (h : ∀ n ∈ value, Formed .expression n) :
    Formed .expression (callAt depth (Plan.boundItems (depth + 1) isGlobal name value)) := by
  refine formed_operation (List.forall_mem_append.2 ⟨?_, ?_⟩)
  · cases isGlobal with
    | true => exact List.forall_mem_singleton.2 (formed_nameAt _ _)
    | false => exact List.forall_mem_nil _
  · exact List.forall_mem_cons.2 ⟨formed_nameAt _ _, h⟩

/-! ### Plans -/

namespace Plan

variable {depth : Nat} {t opening keyword : Token} {post : List Node → Prop}

theorem yields_just {goal : Goal} (depth : Nat) (h : ∀ nodes, goal.Promises nodes → post nodes) :
    (just goal depth).Yields post :=
  fun nodes _ hnodes => h nodes hnodes

theorem yields_word {change : Node → Node} (h : ∀ n, n.isWord = true → post [change n]) :
    (word depth t change).Yields post := by
  unfold word Yields
  cases hatom : atom depth t with
  | ok n => exact h n (isWord_atom hatom)
  | error cause => trivial

/-- One expression is given. -/
def YieldsOne (p : Plan) : Prop :=
  p.Yields fun nodes => (∀ n ∈ nodes, Formed .expression n) ∧ ∃ n, nodes = [n]

theorem yieldsOne_give {n : Node} (h : Formed .expression n) : YieldsOne (.give [n]) :=
  ⟨List.forall_mem_singleton.2 h, n, rfl⟩

theorem yieldsOne_just {goal : Goal} (depth : Nat) (hrole : goal.role = .expression)
    (hone : goal.isOne = true) : (just goal depth).YieldsOne :=
  fun _ _ hnodes => ⟨hrole ▸ hnodes.1, hnodes.2 hone⟩

theorem yieldsOne_call {items : List Node} (h : ∀ n ∈ items, Formed .expression n) :
    (call depth opening items).YieldsOne := by
  unfold call
  cases hitems : callItems items with
  | ok items' => exact yieldsOne_give (formed_call hitems h)
  | error cause => trivial

theorem yieldsOne_listExpression (o : Opener) : (listExpression depth o opening).YieldsOne := by
  rintro items _ ⟨hitems, -⟩
  refine ⟨yieldsOne_call hitems, fun arrow => ?_⟩
  dsimp only
  split
  · unfold Plan.function
    cases paramNames items with
    | ok params => exact fun body _ hbody => yieldsOne_give (.function hbody.1)
    | error cause => trivial
  · exact yieldsOne_call hitems

/-- Quoted data is a datum and an expression. -/
theorem yields_dataList (o : Opener) (h : ∀ s items, Formed .datum (.list s items) →
    post [.list s items]) : (dataList depth o opening).Yields post :=
  fun items _ hitems => h _ items (.quotedList rfl hitems.1)

theorem yieldsOne_opened (o : Opener) : (opened depth opening o).YieldsOne := by
  cases o with
  | paren | bracket => exact yieldsOne_listExpression _
  | quotedParen | quotedBracket => exact yields_dataList _ fun s items h => yieldsOne_give (.data h)
  | brace => exact fun body _ hbody => yieldsOne_give (formed_operation hbody.1)

theorem yieldsOne_named : (named depth t).YieldsOne := by
  unfold named
  cases t.keyword? with
  | some k => exact yieldsOne_just _ rfl rfl
  | none =>
    refine ⟨yieldsOne_give (formed_nameAt _ _), fun next => ?_⟩
    dsimp only
    split
    · exact yieldsOne_give (formed_nameAt _ _)
    · exact yieldsOne_just _ rfl rfl

theorem yieldsOne_letEnd {single : Bool} {node : Node} (h : Formed .expression node) :
    (letEnd depth keyword single node).YieldsOne := by
  refine ⟨?_, fun next => ?_⟩
  · split
    · trivial
    · exact yieldsOne_give h
  · dsimp only
    split
    · exact yieldsOne_give h
    · split
      · trivial
      · exact yieldsOne_give h

theorem yieldsOne_letEquals {isGlobal : Bool} {name : String} :
    (letEquals depth keyword isGlobal name).YieldsOne := by
  refine ⟨trivial, fun eq => ?_⟩
  dsimp only
  split
  · exact fun value _ hvalue => yieldsOne_letEnd (formed_boundItems hvalue.1)
  · trivial

theorem yieldsOne_letName {isGlobal : Bool} : (letName depth keyword isGlobal).YieldsOne := by
  refine ⟨trivial, fun name => ?_⟩
  dsimp only
  split
  · exact yieldsOne_letEquals
  · trivial

theorem yieldsOne_letForm : (letForm depth keyword).YieldsOne := by
  refine ⟨trivial, fun t => ?_⟩
  dsimp only
  split
  · refine ⟨trivial, fun next => ?_⟩
    dsimp only
    split
    · exact yieldsOne_letEquals
    · exact yieldsOne_letName
  · exact yieldsOne_letName

theorem yields_branches {next : List Node → Plan}
    (h : ∀ bs, (∀ n ∈ bs, Formed .branch n) → (next bs).Yields post) :
    (branches depth keyword next).Yields post := by
  rintro bs _ ⟨hbs, -⟩
  dsimp only
  split
  · trivial
  · exact h bs hbs

/-- A branch and those after it. -/
theorem yields_branch :
    (branch depth keyword).Yields fun nodes => ∀ n ∈ nodes, Formed .branch n := by
  intro pattern _ hpattern
  refine ⟨trivial, fun arrow => ?_⟩
  dsimp only
  split
  · refine ⟨trivial, fun _ body _ hbody bs _ hbs => ?_⟩
    obtain ⟨p, rfl⟩ := hpattern.2 rfl
    obtain ⟨b, rfl⟩ := hbody.2 rfl
    refine List.forall_mem_cons.2 ⟨.branch rfl rfl ?_ ?_, hbs.1⟩
    · exact hpattern.1 p (List.mem_singleton_self p)
    · exact hbody.1 b (List.mem_singleton_self b)
  · trivial

theorem yields_sequence {first others : Goal} (h : first.role = others.role) :
    (sequence first others depth).Yields fun nodes => ∀ n ∈ nodes, Formed others.role n := by
  rintro ns _ ⟨hns, -⟩ more _ ⟨hmore, -⟩
  exact List.forall_mem_append.2 ⟨h ▸ hns, hmore⟩

end Plan

/-! ### Rules -/

/-- A rule for several nodes has only to give nodes of their role. -/
theorem Plan.Yields.several {goal : Goal} {p : Plan} (hone : goal.isOne = false)
    (h : p.Yields fun nodes => ∀ n ∈ nodes, Formed goal.role n) : p.Yields goal.Promises := by
  have hpost : (fun nodes : List Node => ∀ n ∈ nodes, Formed goal.role n) = goal.Promises := by
    funext nodes
    simp [Goal.Promises, hone]
  rwa [hpost] at h

theorem Plan.YieldsOne.promises {goal : Goal} {p : Plan} (hrole : goal.role = .expression)
    (hone : goal.isOne = true) (h : p.YieldsOne) : p.Yields goal.Promises := by
  have hpost : (fun nodes : List Node => (∀ n ∈ nodes, Formed .expression n) ∧ ∃ n, nodes = [n]) =
      goal.Promises := by
    funext nodes
    simp [Goal.Promises, hone, hrole]
  unfold YieldsOne at h
  rwa [hpost] at h

/-- Each goal keeps its promises. -/
theorem Goal.yields_plan (goal : Goal) (depth : Nat) :
    (goal.plan depth).Yields goal.Promises := by
  have hnone (role : Role) : ∀ n ∈ ([] : List Node), Formed role n := List.forall_mem_nil _
  cases goal with
  | program =>
    refine .several rfl ⟨hnone _, fun t => ?_⟩
    dsimp only
    split
    · exact Plan.yields_just depth fun _ h => h.1
    · exact Plan.yields_sequence rfl
  | statement =>
    refine Plan.YieldsOne.promises rfl rfl ⟨trivial, fun t => ?_⟩
    dsimp only
    split
    · exact Plan.yieldsOne_named
    · exact Plan.yieldsOne_just _ rfl rfl
  | element keywords =>
    refine Plan.YieldsOne.promises rfl rfl ⟨trivial, fun t => ?_⟩
    dsimp only
    split
    · next o _ => exact Plan.yieldsOne_opened o
    · trivial
    · trivial
    · split
      · exact Plan.yieldsOne_just depth rfl rfl
      · exact Plan.yields_word fun n hn => Plan.yieldsOne_give (.word hn)
  | keywordForm k keyword =>
    refine Plan.YieldsOne.promises rfl rfl ?_
    cases k with
    | letWord => exact Plan.yieldsOne_letForm
    | matchWord =>
      refine ⟨trivial, fun _ value _ hvalue => Plan.yields_branches fun bs hbs => ?_⟩
      exact Plan.yieldsOne_give (formed_branching (k := .matchWord) (by decide) hvalue.1 hbs)
    | condWord =>
      refine Plan.yields_branches fun bs hbs => ?_
      exact Plan.yieldsOne_give (formed_branching (k := .condWord) (by decide) (hnone _) hbs)
  | items o opening quoted first =>
    refine .several rfl ⟨trivial, fun t => ?_⟩
    dsimp only
    split
    · split
      · exact hnone _
      · trivial
    · cases quoted with
      | true => exact Plan.yields_sequence rfl
      | false => exact Plan.yields_sequence rfl
  | dataElement =>
    have hone {n : Node} (h : Formed .datum n) : Goal.dataElement.Promises [n] :=
      ⟨List.forall_mem_singleton.2 h, fun _ => ⟨n, rfl⟩⟩
    refine ⟨trivial, fun t => ?_⟩
    dsimp only
    split
    · trivial
    · trivial
    · exact Plan.yields_dataList _ fun s items h => hone h
    · exact Plan.yields_word fun n hn => hone (formed_quote hn)
  | functionBody opening =>
    refine .several rfl ⟨trivial, fun t => ?_⟩
    dsimp only
    split
    · exact fun body _ hbody => hbody.1
    · exact Plan.yields_just (depth + 1) fun _ h => h.1
  | statements opening =>
    refine .several rfl ⟨trivial, fun t => ?_⟩
    dsimp only
    split
    · exact Plan.yields_just depth fun _ h => h.1
    · exact hnone _
    · exact Plan.yields_sequence rfl
  | bareCall head =>
    refine Plan.YieldsOne.promises rfl rfl fun args _ hargs => ?_
    exact Plan.yieldsOne_give (formed_operation hargs.1)
  | bareArgs head =>
    refine .several rfl ⟨trivial, fun t => ?_⟩
    dsimp only
    split
    · exact hnone _
    · trivial
    · exact Plan.yields_sequence rfl
  | letValue keyword =>
    refine Plan.YieldsOne.promises rfl rfl ⟨trivial, fun t => ?_⟩
    dsimp only
    split
    · refine ⟨Plan.yieldsOne_named, fun next => ?_⟩
      dsimp only
      split
      · exact Plan.yieldsOne_give (formed_nameAt _ _)
      · exact Plan.yieldsOne_named
    · exact Plan.yieldsOne_just _ rfl rfl
  | branchList keyword =>
    refine .several rfl ⟨trivial, fun t => ?_⟩
    dsimp only
    split
    · exact hnone _
    · split
      · exact Plan.yields_branch
      · split
        · exact hnone _
        · trivial
  | pattern =>
    refine Plan.YieldsOne.promises rfl rfl ⟨trivial, fun t => ?_⟩
    dsimp only
    split
    · exact fun items _ hitems => Plan.yieldsOne_call hitems.1
    · exact fun items _ hitems => Plan.yieldsOne_call hitems.1
    · exact Plan.yieldsOne_just _ rfl rfl

/-- What a plan gives has the property, since all that it reads keeps its promises. -/
theorem Runs.yields {c : Context} {p : Plan} {ts : List Token} {r : Result} (h : Runs c p ts r)
    {post : List Node → Prop} (hp : p.Yields post) {nodes : List Node} {rest : List Token}
    (hr : r = .ok (nodes, rest)) : post nodes := by
  induction h generalizing post nodes rest with
  | give =>
    cases hr
    exact hp
  | refuse | refuseAtEnd | tooDeep | readError => cases hr
  | peekEnd _ ih => exact ih hp.1 hr
  | peek _ ih => exact ih (hp.2 _) hr
  | shift _ ih => exact ih hp hr
  | deeper _ _ ih => exact ih hp hr
  | @readOk goal depth _ _ _ _ _ _ _ ih ihnext =>
    exact ihnext (hp _ _ (ih (goal.yields_plan depth) rfl)) hr

/-! ## Whole programs -/

/-- Whatever a reader has read before, its programs consist of expressions. -/
theorem formed_of_readAll_ok {r r' : Reader} {nodes : List Node}
    (h : r.readAll = (.ok nodes, r')) : ∀ n ∈ nodes, Formed .expression n := by
  have hruns := runs_run r.context .program r.depth r.rest
  rw [run] at hruns
  unfold readAll at h
  cases hprogram : program r.context r.depth r.rest with
  | error f =>
    rw [hprogram] at h
    cases h
  | ok nodes' =>
    rw [hprogram] at h hruns
    cases h
    exact (hruns.yields (Goal.program.yields_plan r.depth) rfl).1

/-- **The trees of programs.** At any depth of what is read, a list that is not quoted is a pair
labelled as a branch, as an argument after the operator of a form with branches, or a call: it
starts with an operator, a function or quoted data, and so is not empty. Operators stand only at
the head of lists that are not quoted, and below a quoted list there is only quoted data. -/
theorem readAll_trees {r r' : Reader} {nodes : List Node} (h : r.readAll = (.ok nodes, r'))
    {root n : Node} {place : Node.Place} (hroot : root ∈ nodes) (hn : root.Occurs place n) :
    (∀ s items, n = .list s items → s.quoted = false →
      (place.IsBranch ∧ s.label = "branch" ∧ items.length = 2) ∨
        ∃ head args, items = head :: args ∧ head.startsCall = true) ∧
    (∀ s name, n = .operator s name → place.IsHead) ∧
    (∀ s items, n = .list s items → s.quoted = true →
      ∀ item ∈ items, ∀ m, item.Reaches m → m.stamp.quoted = true ∧ m.isDataKind = true) := by
  obtain ⟨role, hformed, hallows⟩ := hn.formed (formed_of_readAll_ok h root hroot)
  refine ⟨?_, ?_, ?_⟩
  · rintro s items rfl hquoted
    rcases hformed.unquoted_cases hquoted with ⟨rfl, hlabel, hlength⟩ | hcall
    · exact .inl ⟨hallows, hlabel, hlength⟩
    · exact .inr hcall
  · rintro s name rfl
    obtain rfl := hformed.role_of_operator
    exact hallows
  · rintro s items rfl hquoted item hitem m hm
    have hdatum : Formed .datum item := (hformed.datum_of_quoted hquoted).item_of_datum hitem
    exact (hdatum.of_reaches hm).quoted_of_datum

/-- The branch of a `cond`. -/
theorem readAll_trees_branch :
    ∃ (nodes : List Node) (r' : Reader) (root : Node) (place : Node.Place) (s : Stamp)
      (items : List Node),
      (ofTokens [⟨"cond", 1⟩, ⟨"|", 1⟩, ⟨"a", 1⟩, ⟨"=>", 1⟩, ⟨"b", 1⟩, ⟨";", 1⟩] 4).readAll =
        (.ok nodes, r') ∧ root ∈ nodes ∧ root.Occurs place (.list s items) ∧ s.quoted = false ∧
      ((place.IsBranch ∧ s.label = "branch" ∧ items.length = 2) ∨
        ∃ head args, items = head :: args ∧ head.startsCall = true) := by
  have hbranch : Runs ⟨4, 1⟩ ((Goal.branchList ⟨"cond", 1⟩).plan 1)
      [⟨"|", 1⟩, ⟨"a", 1⟩, ⟨"=>", 1⟩, ⟨"b", 1⟩, ⟨";", 1⟩]
      (.ok ([.list { label := "branch", depth := 1 } [nameAt 2 "a", nameAt 2 "b"]], [])) := by
    refine .peek (.shift (.deeper (by decide) ?_))
    refine .readOk (.peek (.just (.peek (.shift .give)))) (.peek (.shift (.peek ?_)))
    exact .readOk (.peek (.shift .give)) (.readOk (.peek (.shift .give)) .give)
  have hcond : Runs ⟨4, 1⟩ (Goal.program.plan 0)
      [⟨"cond", 1⟩, ⟨"|", 1⟩, ⟨"a", 1⟩, ⟨"=>", 1⟩, ⟨"b", 1⟩, ⟨";", 1⟩]
      (.ok ([callAt 0 [operatorAt 1 "cond",
        .list { label := "branch", depth := 1 } [nameAt 2 "a", nameAt 2 "b"]]], [])) := by
    refine runs_program (by decide) (.peek (.shift (.just (.deeper (by decide) ?_))))
    exact .readOk hbranch .give
  have hread := readAll_of_runs hcond rfl
  have hroot := List.mem_singleton_self (callAt 0 [operatorAt 1 "cond",
    .list { label := "branch", depth := 1 } [nameAt 2 "a", nameAt 2 "b"]])
  have hbelow : (callAt 0 [operatorAt 1 "cond",
      .list { label := "branch", depth := 1 } [nameAt 2 "a", nameAt 2 "b"]]).Occurs
      (.item { depth := 0 } [operatorAt 1 "cond",
        .list { label := "branch", depth := 1 } [nameAt 2 "a", nameAt 2 "b"]] 1)
      (.list { label := "branch", depth := 1 } [nameAt 2 "a", nameAt 2 "b"]) := .item .top rfl
  have htrees := readAll_trees hread hroot hbelow
  exact ⟨_, _, _, _, _, _, hread, hroot, hbelow, rfl, htrees.1 _ _ rfl rfl⟩

end ExprShell.Reader
