/-
One level deeper (`Runs.sink`). What is read at a depth is read at the next depth too, if the bound
allows one level more; the nodes are the same but for the depths they carry.

Two plans are compared step by step (`Plan.Sinks`). The depth itself decides at two places, the end
of a binding and the end of a list of branches, and only in favour of the deeper reading.
-/
import ExprShell.Proofs.Reader.Rules

namespace ExprShell

/-! ## Nodes -/

namespace Node

mutual

/-- The node as it is read one level deeper. -/
def sunk : Node → Node
  | .list s items => .list { s with depth := s.depth + 1 } (sunkAll items)
  | .function s params body => .function { s with depth := s.depth + 1 } params (sunkAll body)
  | n => n.withStamp { n.stamp with depth := n.stamp.depth + 1 }

def sunkAll : List Node → List Node
  | [] => []
  | n :: rest => sunk n :: sunkAll rest

end

theorem sunkAll_append (ns ms : List Node) : sunkAll (ns ++ ms) = sunkAll ns ++ sunkAll ms := by
  induction ns with
  | nil => rfl
  | cons n ns ih =>
    show sunk n :: sunkAll (ns ++ ms) = sunk n :: (sunkAll ns ++ sunkAll ms)
    rw [ih]

theorem isEmpty_sunkAll (ns : List Node) : (sunkAll ns).isEmpty = ns.isEmpty := by
  cases ns with
  | _ => rfl

theorem sunk_quote (n : Node) : n.quote.sunk = n.sunk.quote := by
  cases n with
  | _ => rfl

end Node

namespace Reader

open Node (sunk sunkAll)

variable {depth : Nat} {t opening keyword : Token} {items : List Node}

theorem atom_sunk {n : Node} (h : atom depth t = .ok n) : atom (depth + 1) t = .ok n.sunk := by
  unfold atom at h ⊢
  repeat' split at h
  all_goals cases h
  all_goals simp_all [sunk, nameAt, Node.withStamp, Node.stamp]

theorem callItems_sunk {items' : List Node} (h : callItems items = .ok items') :
    callItems (sunkAll items) = .ok (sunkAll items') := by
  cases items with
  | nil => cases h
  | cons head args =>
    cases head with
    | identifier s name =>
      cases hquoted : s.quoted with
      | true =>
        simp [callItems, hquoted] at h
      | false =>
        simp only [callItems, hquoted, Bool.false_eq_true, if_false] at h
        cases h
        simp [callItems, sunkAll, sunk, Node.withStamp, Node.stamp, hquoted]
    | function s params body =>
      cases h
      rfl
    | list s inner =>
      cases hquoted : s.quoted with
      | true =>
        simp only [callItems, hquoted, if_true] at h
        cases h
        simp [callItems, sunkAll, sunk, hquoted]
      | false => simp [callItems, hquoted] at h
    | _ => cases h

theorem paramNames_sunk {params : List String} (h : paramNames items = .ok params) :
    paramNames (sunkAll items) = .ok params := by
  induction items generalizing params with
  | nil => exact h
  | cons n rest ih =>
    cases n with
    | identifier s name =>
      cases hquoted : s.quoted with
      | true => simp [paramNames, hquoted] at h
      | false =>
        simp only [paramNames, hquoted, Bool.false_eq_true, if_false] at h
        cases hrest : paramNames rest with
        | error cause =>
          rw [hrest] at h
          cases h
        | ok names =>
          rw [hrest] at h
          simp [paramNames, sunkAll, sunk, Node.withStamp, Node.stamp, hquoted, ih hrest, ← h]
    | _ => cases h

theorem binding_sunk (isGlobal : Bool) (name : String) (value : List Node) :
    (callAt depth (Plan.boundItems (depth + 1) isGlobal name value)).sunk =
      callAt (depth + 1) (Plan.boundItems (depth + 1 + 1) isGlobal name (sunkAll value)) := by
  cases isGlobal with
  | _ => rfl

/-! ## Plans -/

/-- The second plan does one level deeper what the first one does, where that does not fail. -/
inductive Plan.Sinks : Plan → Plan → Prop where
  | give {nodes nodes' : List Node} : nodes' = sunkAll nodes → Sinks (.give nodes) (.give nodes')
  | refuse {depth line : Nat} {cause : SyntaxCause} {p : Plan} : Sinks (.refuse depth line cause) p
  | refuseAtEnd {depth : Nat} {cause : SyntaxCause} {p : Plan} : Sinks (.refuseAtEnd depth cause) p
  | peek {atEnd atEnd' : Plan} {next next' : Token → Plan} : Sinks atEnd atEnd' →
    (∀ t, Sinks (next t) (next' t)) → Sinks (.peek atEnd next) (.peek atEnd' next')
  | shift {next next' : Plan} : Sinks next next' → Sinks (.shift next) (.shift next')
  | deeper {opening : Token} {depth : Nat} {next next' : Plan} : Sinks next next' →
    Sinks (.deeper opening depth next) (.deeper opening (depth + 1) next')
  | read {goal : Goal} {depth : Nat} {next next' : List Node → Nat → Plan} :
    (∀ nodes count, Sinks (next nodes count) (next' (sunkAll nodes) count)) →
      Sinks (.read goal depth next) (.read goal (depth + 1) next')

namespace Plan

theorem sinks_just (goal : Goal) (depth : Nat) : (just goal depth).Sinks (just goal (depth + 1)) :=
  .read fun _ _ => .give rfl

theorem sinks_sequence (first others : Goal) (depth : Nat) :
    (sequence first others depth).Sinks (sequence first others (depth + 1)) := by
  refine .read fun n _ => .read fun ns _ => .give ?_
  exact (Node.sunkAll_append n ns).symm

theorem sinks_word {change : Node → Node} (h : ∀ n, (change n).sunk = change n.sunk) :
    (word depth t change).Sinks (word (depth + 1) t change) := by
  refine .shift ?_
  cases hatom : atom depth t with
  | error cause => exact .refuse
  | ok n =>
    rw [atom_sunk hatom]
    exact .give (congrArg (fun n => [n]) (h n).symm)

theorem sinks_call :
    (call depth opening items).Sinks (call (depth + 1) opening (sunkAll items)) := by
  unfold call
  cases hitems : callItems items with
  | error cause => exact .refuse
  | ok items' =>
    rw [callItems_sunk hitems]
    exact .give rfl

theorem sinks_delimited {o : Opener} {quoted : Bool} {next next' : List Node → Plan}
    (h : ∀ items, (next items).Sinks (next' (sunkAll items))) :
    (delimited depth o opening quoted next).Sinks (delimited (depth + 1) o opening quoted next') :=
  .deeper (.read fun items _ => h items)

theorem sinks_dataList (o : Opener) :
    (dataList depth o opening).Sinks (dataList (depth + 1) o opening) :=
  sinks_delimited fun _ => .give rfl

theorem sinks_function :
    (function depth opening items).Sinks (function (depth + 1) opening (sunkAll items)) := by
  unfold function
  cases hparams : paramNames items with
  | error cause => exact .refuse
  | ok params =>
    rw [paramNames_sunk hparams]
    exact .read fun _ _ => .give rfl

theorem sinks_listExpression (o : Opener) :
    (listExpression depth o opening).Sinks (listExpression (depth + 1) o opening) := by
  refine sinks_delimited fun items => .peek sinks_call fun arrow => ?_
  split
  · exact .shift sinks_function
  · exact sinks_call

theorem sinks_block {next next' : List Node → Plan}
    (h : ∀ body, (next body).Sinks (next' (sunkAll body))) :
    (block depth opening next).Sinks (block (depth + 1) opening next') :=
  .deeper (.read fun body _ => h body)

theorem sinks_opened (o : Opener) :
    (opened depth opening o).Sinks (opened (depth + 1) opening o) := by
  cases o with
  | paren | bracket => exact sinks_listExpression _
  | quotedParen | quotedBracket => exact sinks_dataList _
  | brace => exact sinks_block fun _ => .give rfl

theorem sinks_named : (named depth t).Sinks (named (depth + 1) t) := by
  unfold named
  cases t.keyword? with
  | some k => exact sinks_just _ _
  | none =>
    refine .peek (.give rfl) fun next => ?_
    split
    · exact .give rfl
    · exact sinks_just _ _

/-- A binding that ends ends one level deeper, where a closer is not refused either. -/
theorem sinks_letEnd {single : Bool} {node : Node} :
    (letEnd depth keyword single node).Sinks (letEnd (depth + 1) keyword single node.sunk) := by
  refine .peek ?_ fun t => ?_
  · cases single with
    | true => exact .refuse
    | false => exact .give rfl
  · by_cases ht : t.shape = .separator
    · rw [if_pos ht, if_pos ht]
      exact .shift (.give rfl)
    · rw [if_neg ht, if_neg ht]
      by_cases hrefused : (single && !(0 < depth && t.isCloser)) = true
      · rw [if_pos hrefused]
        exact .refuse
      · rw [if_neg hrefused, if_neg]
        · exact .give rfl
        · simp_all

theorem sinks_letEquals {isGlobal : Bool} {name : String} :
    (letEquals depth keyword isGlobal name).Sinks
      (letEquals (depth + 1) keyword isGlobal name) := by
  refine .peek .refuseAtEnd fun eq => ?_
  split
  · refine .shift (.deeper (.read fun value count => ?_))
    rw [← binding_sunk]
    exact sinks_letEnd
  · exact .refuse

theorem sinks_letName {isGlobal : Bool} :
    (letName depth keyword isGlobal).Sinks (letName (depth + 1) keyword isGlobal) := by
  refine .peek .refuseAtEnd fun name => ?_
  split
  · exact .shift sinks_letEquals
  · exact .refuse

theorem sinks_letForm : (letForm depth keyword).Sinks (letForm (depth + 1) keyword) := by
  refine .peek .refuseAtEnd fun t => ?_
  split
  · refine .shift (.peek .refuseAtEnd fun next => ?_)
    split
    · exact sinks_letEquals
    · exact sinks_letName
  · exact sinks_letName

theorem sinks_branches {next next' : List Node → Plan}
    (h : ∀ bs, (next bs).Sinks (next' (sunkAll bs))) :
    (branches depth keyword next).Sinks (branches (depth + 1) keyword next') := by
  refine .deeper (.read fun bs _ => ?_)
  rw [Node.isEmpty_sunkAll]
  split
  · exact .refuse
  · exact h bs

theorem sinks_matchForm : (matchForm depth keyword).Sinks (matchForm (depth + 1) keyword) := by
  refine .deeper (.peek .refuse fun _ => .read fun value _ => sinks_branches fun bs => .give ?_)
  rw [← Node.sunkAll_append]
  rfl

theorem sinks_branch : (branch depth keyword).Sinks (branch (depth + 1) keyword) := by
  refine .deeper (.read fun pattern _ => .peek .refuseAtEnd fun arrow => ?_)
  split
  · refine .shift (.peek .refuse fun _ => .read fun body _ => .read fun bs _ => .give ?_)
    rw [← Node.sunkAll_append]
    rfl
  · exact .refuse

end Plan

/-! ## Rules -/

theorem Goal.sinks_plan (goal : Goal) (depth : Nat) :
    (goal.plan depth).Sinks (goal.plan (depth + 1)) := by
  cases goal with
  | program =>
    refine .peek (.give rfl) fun t => ?_
    split
    · exact .shift (Plan.sinks_just _ _)
    · exact Plan.sinks_sequence _ _ _
  | statement =>
    refine .peek .refuseAtEnd fun t => ?_
    split
    · exact .shift Plan.sinks_named
    · exact Plan.sinks_just _ _
  | element keywords =>
    refine .peek .refuseAtEnd fun t => ?_
    cases t.shape with
    | opener o => exact .shift (Plan.sinks_opened o)
    | closer _ | separator => exact .refuse
    | word =>
      dsimp only
      split
      · exact .shift (Plan.sinks_just _ _)
      · exact Plan.sinks_word fun _ => rfl
  | keywordForm k keyword =>
    cases k with
    | letWord => exact Plan.sinks_letForm
    | matchWord => exact Plan.sinks_matchForm
    | condWord => exact Plan.sinks_branches fun _ => .give rfl
  | items o opening quoted first =>
    refine .peek .refuse fun t => ?_
    split
    · split
      · exact .shift (.give rfl)
      · exact .refuse
    · exact Plan.sinks_sequence _ _ _
  | dataElement =>
    refine .peek .refuseAtEnd fun t => ?_
    split
    · exact .refuse
    · exact .refuse
    · exact .shift (Plan.sinks_dataList _)
    · exact Plan.sinks_word Node.sunk_quote
  | functionBody opening =>
    refine .peek .refuse fun t => ?_
    split
    · exact .shift (Plan.sinks_block fun _ => .give rfl)
    · exact .deeper (Plan.sinks_just _ _)
  | statements opening =>
    refine .peek .refuse fun t => ?_
    split
    · exact .shift (Plan.sinks_just _ _)
    · exact .shift (.give rfl)
    · exact Plan.sinks_sequence _ _ _
  | bareCall head => exact .deeper (.read fun _ _ => .give rfl)
  | bareArgs head =>
    refine .peek .refuse fun t => ?_
    split
    · exact .shift (.give rfl)
    · exact .refuse
    · exact Plan.sinks_sequence _ _ _
  | letValue keyword =>
    refine .peek .refuse fun t => ?_
    split
    · refine .shift (.peek Plan.sinks_named fun next => ?_)
      split
      · exact .give rfl
      · exact Plan.sinks_named
    · exact Plan.sinks_just _ _
  | branchList keyword =>
    refine .peek .refuse fun t => ?_
    split
    · exact .shift (.give rfl)
    · split
      · exact .shift Plan.sinks_branch
      · by_cases hend : (t.isCloser && 1 < depth) = true
        · obtain ⟨hcloser, hdepth⟩ := Bool.and_eq_true_iff.1 hend
          have hdeeper : 1 < depth + 1 := Nat.lt_succ_of_lt (of_decide_eq_true hdepth)
          rw [if_pos hend, if_pos (Bool.and_eq_true_iff.2 ⟨hcloser, decide_eq_true hdeeper⟩)]
          exact .give rfl
        · rw [if_neg hend]
          exact .refuse
  | pattern =>
    refine .peek .refuseAtEnd fun t => ?_
    split
    · exact .shift (Plan.sinks_delimited fun _ => Plan.sinks_call)
    · exact .shift (Plan.sinks_delimited fun _ => Plan.sinks_call)
    · exact Plan.sinks_just _ _

/-! ## Runs -/

/-- **What is read is read one level deeper too**, under a bound that allows one level more. -/
theorem Runs.sink {maxDepth line : Nat} {p q : Plan} {ts rest : List Token} {r : Result}
    {nodes : List Node} (h : Runs ⟨maxDepth, line⟩ p ts r) (hr : r = .ok (nodes, rest))
    (hp : p.Sinks q) : Runs ⟨maxDepth + 1, line⟩ q ts (.ok (sunkAll nodes, rest)) := by
  induction h generalizing q nodes rest with
  | give =>
    cases hr
    cases hp with
    | give hnodes =>
      rw [hnodes]
      exact .give
  | refuse | refuseAtEnd | tooDeep | readError => cases hr
  | peekEnd _ ih =>
    cases hp with
    | peek hend _ => exact .peekEnd (ih hr hend)
  | peek _ ih =>
    cases hp with
    | peek _ hnext => exact .peek (ih hr (hnext _))
  | shift _ ih =>
    cases hp with
    | shift hnext => exact .shift (ih hr hnext)
  | deeper hdepth _ ih =>
    cases hp with
    | deeper hnext => exact .deeper (Nat.succ_lt_succ hdepth) (ih hr hnext)
  | @readOk goal depth _ _ _ _ _ _ _ ih ihnext =>
    cases hp with
    | read hnext => exact .readOk (ih rfl (goal.sinks_plan depth)) (ihnext hr (hnext _ _))

end Reader

end ExprShell
