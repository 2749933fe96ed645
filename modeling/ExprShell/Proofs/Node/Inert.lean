/-
Data and code. A value is inert if every list in it is quoted, and code is what the evaluator may
be given: whatever stands in its quoted lists is inert, inside functions and held-back expressions
as well. Values of the shell are both (`Node.IsValue`); they stay so in all that is made of them
without evaluation: expressions (`isCode_toExpression`), JSON (`isValue_ofJson`), captures of
patterns (`isValue_matches?`) and results of tools (`isValue_pureValue?`).
-/
import ExprShell.Node.Expression
import ExprShell.Pattern
import ExprShell.Tool.Run

namespace ExprShell

section Checks

variable {α β : Type} {x : Except Fault α} {b : β}

theorem exists_of_bind_eq_ok {f : α → Except Fault β} (h : (x >>= f) = .ok b) :
    ∃ a, x = .ok a ∧ f a = .ok b := by
  cases x with
  | error e => cases h
  | ok a => exact ⟨a, rfl, h⟩

theorem exists_of_map_eq_ok {f : α → β} (h : x.map f = .ok b) : ∃ a, x = .ok a ∧ f a = b := by
  cases x with
  | error e => cases h
  | ok a =>
    cases h
    exact ⟨a, rfl, rfl⟩

end Checks

namespace Node

/-! ## Inert values -/

/-- The second node is the first one or, at any level, an item of it. Functions and held-back
expressions have no items. -/
inductive Reaches : Node → Node → Prop where
  | refl {n : Node} : Reaches n n
  | item {s : Stamp} {items : List Node} {m n : Node} :
    m ∈ items → Reaches m n → Reaches (.list s items) n

/-- Every list in the value is quoted. -/
def Inert (n : Node) : Prop :=
  ∀ s items, n.Reaches (.list s items) → s.quoted = true

/-- A node with no other nodes in it. -/
def isLeaf : Node → Bool
  | .list .. | .function .. | .rawAst .. => false
  | _ => true

/-- Code in which all that is quoted is inert. -/
inductive IsCode : Node → Prop where
  | list {s : Stamp} {items : List Node} :
    (∀ n ∈ items, IsCode n) → (s.quoted = true → ∀ n ∈ items, Inert n) → IsCode (.list s items)
  | function {s : Stamp} {params : List String} {body : List Node} :
    (∀ n ∈ body, IsCode n) → IsCode (.function s params body)
  | rawAst {s : Stamp} {n : Node} : IsCode n → IsCode (.rawAst s n)
  | leaf {n : Node} : n.isLeaf = true → IsCode n

/-- An inert value that is code where it holds any. -/
structure IsValue (n : Node) : Prop where
  inert : n.Inert
  code : n.IsCode

variable {n : Node} {s : Stamp} {items : List Node}

theorem inert_list : Inert (.list s items) ↔ s.quoted = true ∧ ∀ n ∈ items, Inert n := by
  constructor
  · intro h
    refine ⟨h s items .refl, fun n hn s' items' hreaches => ?_⟩
    exact h s' items' (.item hn hreaches)
  · rintro ⟨hquoted, hitems⟩ s' items' hreaches
    cases hreaches with
    | refl => exact hquoted
    | item hn hreaches => exact hitems _ hn s' items' hreaches

theorem inert_of_kind (h : n.kind ≠ .list) : Inert n := by
  intro s items hreaches
  cases hreaches with
  | refl => exact absurd rfl h
  | item => exact absurd rfl h

theorem kind_of_isLeaf (h : n.isLeaf = true) : n.kind ≠ .list := by
  intro hkind
  cases n with
  | list => cases h
  | _ => cases hkind

theorem IsCode.of_mem (h : IsCode (.list s items)) : ∀ n ∈ items, IsCode n := by
  cases h with
  | list hitems _ => exact hitems
  | leaf h => cases h

theorem IsCode.body {params : List String} {body : List Node}
    (h : IsCode (.function s params body)) : ∀ n ∈ body, IsCode n := by
  cases h with
  | function hbody => exact hbody
  | leaf h => cases h

theorem IsCode.held (h : IsCode (.rawAst s n)) : IsCode n := by
  cases h with
  | rawAst h => exact h
  | leaf h => cases h

/-- Code that is no call is a value. -/
theorem IsCode.isValue (h : IsCode n) (hquoted : n.kind = .list → n.stamp.quoted = true) :
    IsValue n := by
  refine ⟨?_, h⟩
  cases h with
  | list _ hinert =>
    have hquoted := hquoted rfl
    exact inert_list.2 ⟨hquoted, hinert hquoted⟩
  | function _ => exact inert_of_kind (by simp [kind])
  | rawAst _ => exact inert_of_kind (by simp [kind])
  | leaf hleaf => exact inert_of_kind (kind_of_isLeaf hleaf)

theorem isValue_leaf (h : n.isLeaf = true) : IsValue n :=
  ⟨inert_of_kind (kind_of_isLeaf h), .leaf h⟩

theorem isValue_list : IsValue (.list s items) ↔ s.quoted = true ∧ ∀ n ∈ items, IsValue n := by
  constructor
  · rintro ⟨hinert, hcode⟩
    obtain ⟨hquoted, hitems⟩ := inert_list.1 hinert
    exact ⟨hquoted, fun n hn => ⟨hitems n hn, hcode.of_mem n hn⟩⟩
  · rintro ⟨hquoted, hitems⟩
    refine ⟨inert_list.2 ⟨hquoted, fun n hn => (hitems n hn).inert⟩, ?_⟩
    exact .list (fun n hn => (hitems n hn).code) fun _ n hn => (hitems n hn).inert

theorem isValue_data (h : ∀ n ∈ items, IsValue n) : IsValue (.data items) :=
  isValue_list.2 ⟨rfl, h⟩

theorem isCode_unquoted (h : ∀ n ∈ items, IsCode n) (hs : s.quoted = false) :
    IsCode (.list s items) := by
  refine .list h fun hquoted => ?_
  rw [hs] at hquoted
  cases hquoted

theorem isValue_asList {l : Node} (h : l.asList = .ok items) (hl : IsValue l) :
    ∀ n ∈ items, IsValue n := by
  cases l with
  | list s items' =>
    cases h
    exact (isValue_list.1 hl).2
  | _ => cases h

/-! ## Expressions -/

theorem isCode_withStamp (hkind : n.kind ≠ .list) (h : IsCode n) : IsCode (n.withStamp s) := by
  cases h with
  | list => exact absurd rfl hkind
  | function hbody => exact .function hbody
  | rawAst h => exact .rawAst h
  | leaf hleaf =>
    refine .leaf ?_
    cases n with
    | list | function | rawAst => cases hleaf
    | _ => rfl

theorem isCode_promoteHead (h : ∀ n ∈ items, IsCode n) : ∀ n ∈ promoteHead items, IsCode n := by
  cases items with
  | nil => exact h
  | cons head rest =>
    have hhead : IsCode head.promote := by
      cases head with
      | identifier s name => exact .leaf rfl
      | _ => exact h _ List.mem_cons_self
    exact List.forall_mem_cons.2 ⟨hhead, fun n hn => h n (List.mem_cons_of_mem _ hn)⟩

mutual

/-- The expression that a value spells is code. -/
theorem isCode_toExpression (n : Node) (h : IsValue n) : IsCode n.toExpression := by
  match n with
  | .list s items =>
    rw [toExpression]
    have hitems := isCode_toExpressions items (isValue_list.1 h).2
    exact isCode_unquoted (isCode_promoteHead hitems) rfl
  | .string .. | .number .. | .boolean .. | .function .. | .operator .. | .identifier ..
  | .command .. | .commandResult .. | .error .. | .rawAst .. | .defunc .. =>
    exact isCode_withStamp (by simp [kind]) h.code

theorem isCode_toExpressions (items : List Node) (h : ∀ n ∈ items, IsValue n) :
    ∀ n ∈ toExpressions items, IsCode n := by
  match items with
  | [] => exact List.forall_mem_nil _
  | n :: rest =>
    rw [toExpressions, List.forall_mem_cons]
    rw [List.forall_mem_cons] at h
    exact ⟨isCode_toExpression n h.1, isCode_toExpressions rest h.2⟩

end

end Node

/-! ## JSON -/

namespace Json

open Node (IsValue)

mutual

theorem isValue_toNode (j : Json) {n : Node} (h : j.toNode = .ok n) : IsValue n := by
  match j with
  | .null | .object | .float => cases h
  | .bool b =>
    cases h
    exact Node.isValue_leaf rfl
  | .number m =>
    cases h
    exact Node.isValue_leaf rfl
  | .string text =>
    cases h
    exact Node.isValue_leaf rfl
  | .array items =>
    rw [toNode] at h
    obtain ⟨nodes, hnodes, hdata⟩ := exists_of_bind_eq_ok h
    cases hdata
    exact Node.isValue_data (isValue_toNodes items hnodes)

theorem isValue_toNodes (items : List Json) {nodes : List Node} (h : toNodes items = .ok nodes) :
    ∀ n ∈ nodes, IsValue n := by
  match items with
  | [] =>
    cases h
    exact List.forall_mem_nil _
  | j :: rest =>
    rw [toNodes] at h
    obtain ⟨n, hn, h⟩ := exists_of_bind_eq_ok h
    obtain ⟨ns, hns, hcons⟩ := exists_of_bind_eq_ok h
    cases hcons
    exact List.forall_mem_cons.2 ⟨isValue_toNode j hn, isValue_toNodes rest hns⟩

end

end Json

namespace Node

theorem isValue_ofJson {text : String} {n : Node} (h : ofJson text = .ok n) : IsValue n := by
  unfold ofJson at h
  split at h
  · next j _ => exact j.isValue_toNode h
  · cases h

/-! ## Patterns -/

/-- Whatever is captured is a value. -/
def AreValues (captures : Captures) : Prop :=
  ∀ entry ∈ captures, IsValue entry.2

mutual

theorem isValue_matches? (p v : Node) {captures : Captures} (h : p.matches? v = some captures)
    (hv : IsValue v) : AreValues captures := by
  match p with
  | .list _ ps =>
    cases v with
    | list _ vs =>
      rw [matches?] at h
      exact isValue_allMatch? ps vs h (isValue_list.1 hv).2
    | _ => cases h
  | .identifier _ name =>
    rw [matches?] at h
    split at h
    · cases h
      exact List.forall_mem_nil _
    · cases h
      exact List.forall_mem_singleton.2 hv
  | .string .. | .number .. | .boolean .. | .function .. | .operator .. | .command ..
  | .commandResult .. | .error .. | .rawAst .. | .defunc .. =>
    simp only [matches?] at h
    split at h
    · cases h
      exact List.forall_mem_nil _
    · cases h

theorem isValue_allMatch? (ps vs : List Node) {captures : Captures}
    (h : allMatch? ps vs = some captures) (hvs : ∀ v ∈ vs, IsValue v) : AreValues captures := by
  match ps, vs with
  | [], [] =>
    cases h
    exact List.forall_mem_nil _
  | p :: ps, v :: vs =>
    rw [allMatch?] at h
    obtain ⟨first, hfirst, h⟩ := Option.bind_eq_some_iff.1 h
    obtain ⟨others, hothers, h⟩ := Option.bind_eq_some_iff.1 h
    cases h
    rw [List.forall_mem_cons] at hvs
    exact List.forall_mem_append.2
      ⟨isValue_matches? p v hfirst hvs.1, isValue_allMatch? ps vs hothers hvs.2⟩
  | [], _ :: _ | _ :: _, [] => cases h

end

theorem isValue_destructure {scrutinee head tail : Node} {captures : Captures}
    (h : destructure scrutinee head tail = .ok captures) (hv : IsValue scrutinee) :
    AreValues captures := by
  unfold destructure at h
  split at h
  · next first rest =>
    obtain ⟨headName, -, h⟩ := exists_of_bind_eq_ok h
    obtain ⟨tailName, -, h⟩ := exists_of_bind_eq_ok h
    cases h
    obtain ⟨hfirst, hrest⟩ := List.forall_mem_cons.1 (isValue_list.1 hv).2
    exact List.forall_mem_cons.2 ⟨hfirst, List.forall_mem_singleton.2 (isValue_data hrest)⟩
  · cases h
  · cases h

theorem isValue_test {r : Relation} {capture? : Option Node} {scrutinee operand : Node}
    {captures : Captures} (h : r.test capture? scrutinee operand = .ok (some captures))
    (hv : IsValue scrutinee) : AreValues captures := by
  unfold Relation.test at h
  obtain ⟨holds, -, h⟩ := exists_of_bind_eq_ok h
  split at h
  · split at h
    · cases h
      exact List.forall_mem_nil _
    · obtain ⟨name, -, h⟩ := exists_of_bind_eq_ok h
      cases h
      exact List.forall_mem_singleton.2 hv
  · cases h

end Node

/-! ## Tools -/

namespace Tool

open Node (IsValue)

variable {args : List Node} {n : Node}

theorem isValue_uncons {tool : Tool} {p : Node × List Node} (h : uncons tool n = .ok p)
    (hn : IsValue n) : IsValue p.1 ∧ ∀ m ∈ p.2, IsValue m := by
  obtain ⟨items, hitems, h⟩ := exists_of_bind_eq_ok h
  have hvalues := Node.isValue_asList hitems hn
  cases items with
  | nil => cases h
  | cons first rest =>
    cases h
    exact List.forall_mem_cons.1 hvalues

theorem isValue_elementAt {l index : Node} (h : elementAt l index = .ok n) (hl : IsValue l) :
    IsValue n := by
  obtain ⟨items, hitems, h⟩ := exists_of_bind_eq_ok h
  obtain ⟨i, -, h⟩ := exists_of_bind_eq_ok h
  split at h
  · next item hitem =>
    cases h
    obtain ⟨j, -, hj⟩ := Option.bind_eq_some_iff.1 hitem
    exact Node.isValue_asList hitems hl n (List.mem_of_getElem? hj)
  · cases h

theorem isValue_concatLists {items : List Node} (h : concatLists args = .ok items)
    (hargs : ∀ a ∈ args, IsValue a) : ∀ m ∈ items, IsValue m := by
  induction args generalizing items with
  | nil =>
    cases h
    exact List.forall_mem_nil _
  | cons a rest ih =>
    rw [List.forall_mem_cons] at hargs
    rw [concatLists] at h
    obtain ⟨first, hfirst, h⟩ := exists_of_bind_eq_ok h
    obtain ⟨others, hothers, h⟩ := exists_of_bind_eq_ok h
    cases h
    exact List.forall_mem_append.2
      ⟨Node.isValue_asList hfirst hargs.1, ih hothers hargs.2⟩

theorem isValue_strings (texts : List String) : IsValue (.data (texts.map .ofString)) := by
  refine Node.isValue_data fun m hm => ?_
  obtain ⟨text, -, rfl⟩ := List.mem_map.1 hm
  exact Node.isValue_leaf rfl

theorem isValue_splitNode {text separator : Node} (h : splitNode text separator = .ok n) :
    IsValue n := by
  obtain ⟨text, -, h⟩ := exists_of_bind_eq_ok h
  obtain ⟨separator, -, h⟩ := exists_of_bind_eq_ok h
  cases h
  exact isValue_strings _

theorem isValue_arithmetic {op : Operation} (h : op.apply args = .ok n) : IsValue n := by
  unfold Operation.apply at h
  split at h
  · cases h
  · obtain ⟨operands, -, h⟩ := exists_of_bind_eq_ok h
    obtain ⟨result, -, h⟩ := exists_of_bind_eq_ok h
    cases h
    exact Node.isValue_leaf rfl

theorem isValue_comparison {c : Comparison} {a b : Node} (h : c.apply a b = .ok n) :
    IsValue n := by
  unfold Comparison.apply at h
  split at h <;> cases h <;> exact Node.isValue_leaf rfl

theorem isValue_map {α : Type} {x : Except Fault α} {f : α → Node} (h : x.map f = .ok n)
    (hf : ∀ a, x = .ok a → IsValue (f a)) : IsValue n := by
  obtain ⟨a, ha, rfl⟩ := exists_of_map_eq_ok h
  exact hf a ha

/-- Tools make values of values. -/
theorem isValue_pureValue? {tool : Tool} {r : Except Fault Node} (h : tool.pureValue? args = some r)
    (hr : r = .ok n) (hargs : ∀ a ∈ args, IsValue a) : IsValue n := by
  unfold pureValue? at h
  -- One case per tool, in the order of the definition; most of them give a leaf.
  split at h <;> cases h
  · exact isValue_arithmetic hr
  · exact isValue_comparison hr
  · cases hr
    exact Node.isValue_leaf rfl
  · cases hr
    exact Node.isValue_leaf rfl
  · cases hr
    exact Node.isValue_leaf rfl
  · cases hr
    exact Node.isValue_data hargs
  · exact isValue_map hr fun p hp => (isValue_uncons hp (hargs _ (by simp))).1
  · exact isValue_map hr fun p hp => Node.isValue_data (isValue_uncons hp (hargs _ (by simp))).2
  · refine isValue_map hr fun items hitems => Node.isValue_data ?_
    have hvalues := Node.isValue_asList hitems (hargs _ (by simp))
    exact List.forall_mem_cons.2 ⟨hargs _ (by simp), hvalues⟩
  · exact isValue_map hr fun _ _ => Node.isValue_leaf rfl
  · exact isValue_elementAt hr (hargs _ (by simp))
  · exact isValue_map hr fun items hitems => Node.isValue_data (isValue_concatLists hitems hargs)
  · refine isValue_map hr fun items hitems => Node.isValue_data fun m hm => ?_
    exact Node.isValue_asList hitems (hargs _ (by simp)) m (List.mem_reverse.1 hm)
  · cases hr
    exact Node.isValue_leaf rfl
  · cases hr
    exact Node.isValue_leaf rfl
  · exact isValue_splitNode hr
  · obtain ⟨items, -, hr⟩ := exists_of_bind_eq_ok hr
    obtain ⟨separator, -, hr⟩ := exists_of_bind_eq_ok hr
    cases hr
    exact Node.isValue_leaf rfl
  · exact isValue_map hr fun _ _ => Node.isValue_leaf rfl
  · exact isValue_map hr fun _ _ => Node.isValue_leaf rfl
  · exact isValue_map hr fun _ _ => Node.isValue_leaf rfl
  · exact isValue_map hr fun _ _ => Node.isValue_leaf rfl
  · obtain ⟨text, -, hr⟩ := exists_of_bind_eq_ok hr
    exact Node.isValue_ofJson hr

end Tool

end ExprShell
