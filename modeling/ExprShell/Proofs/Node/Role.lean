/-
What the nodes of a program's tree are there for. A node has a role if it is what the role asks
for and so is all that is in it (`Formed`), and in the tree of an expression each node has a role
that its place allows (`Occurs.formed`). From the role one sees what calls and branches are made
of, where operators stand and what quoted data holds.
-/
import ExprShell.Proofs.Node.Inert
import ExprShell.Token.Basic

namespace ExprShell

namespace Node

/-! ## Places -/

/-- Where a node stands in a tree. -/
inductive Place where
  | top
  /-- At an index of a list. -/
  | item (s : Stamp) (items : List Node) (index : Nat)
  /-- In the body of a function. -/
  | body
  /-- In an expression that is held back. -/
  | held

/-- The node stands at the place, at any depth of the tree. -/
inductive Occurs (root : Node) : Place → Node → Prop where
  | top : Occurs root .top root
  | item {place : Place} {s : Stamp} {items : List Node} {index : Nat} {n : Node} :
    Occurs root place (.list s items) → items[index]? = some n →
      Occurs root (.item s items index) n
  | body {place : Place} {s : Stamp} {params : List String} {body : List Node} {n : Node} :
    Occurs root place (.function s params body) → n ∈ body → Occurs root .body n
  | held {place : Place} {s : Stamp} {n : Node} :
    Occurs root place (.rawAst s n) → Occurs root .held n

/-- The operator of a form with branches. -/
def startsBranches : Node → Bool
  | .operator _ name => name == Keyword.matchWord.text || name == Keyword.condWord.text
  | _ => false

namespace Place

/-- The head of a call. -/
def IsHead (place : Place) : Prop :=
  ∃ s items, place = .item s items 0 ∧ s.quoted = false

/-- An argument of a form with branches. -/
def IsBranch (place : Place) : Prop :=
  ∃ s head args index, place = .item s (head :: args) (index + 1) ∧ s.quoted = false ∧
    head.startsBranches = true

end Place

/-! ## Roles -/

/-- What calls can start with. -/
def startsCall : Node → Bool
  | .operator .. | .function .. => true
  | .list s _ => s.quoted
  | _ => false

/-- Atoms of source text. -/
def isWord : Node → Bool
  | .string .. | .number .. | .boolean .. | .identifier .. => true
  | _ => false

/-- What quoted data is made of. -/
def isDataKind (n : Node) : Bool :=
  n.isWord || n.kind == .list

/-- What a node is there for. -/
inductive Role where
  | expression
  | head
  | branch
  | datum

/-- The node is what its role asks for, and so is all that is in it. -/
inductive Formed : Role → Node → Prop where
  | word {n : Node} : n.isWord = true → Formed .expression n
  | function {s : Stamp} {params : List String} {body : List Node} :
    (∀ n ∈ body, Formed .expression n) → Formed .expression (.function s params body)
  | call {s : Stamp} {head : Node} {args : List Node} : s.quoted = false → Formed .head head →
    (∀ n ∈ args, Formed .expression n) → Formed .expression (.list s (head :: args))
  | branching {s : Stamp} {head : Node} {args bs : List Node} : s.quoted = false →
    head.startsBranches = true → Formed .head head → (∀ n ∈ args, Formed .expression n) →
      (∀ n ∈ bs, Formed .branch n) → Formed .expression (.list s (head :: (args ++ bs)))
  | data {s : Stamp} {items : List Node} : Formed .datum (.list s items) →
    Formed .expression (.list s items)
  | operator {s : Stamp} {name : String} : Formed .head (.operator s name)
  | head {n : Node} : n.startsCall = true → Formed .expression n → Formed .head n
  | branch {s : Stamp} {pattern body : Node} : s.label = "branch" → s.quoted = false →
    Formed .expression pattern → Formed .expression body → Formed .branch (.list s [pattern, body])
  | quotedWord {n : Node} : n.isWord = true → n.stamp.quoted = true → Formed .datum n
  | quotedList {s : Stamp} {items : List Node} : s.quoted = true → (∀ n ∈ items, Formed .datum n) →
    Formed .datum (.list s items)

/-- The roles that a node can have at a place. -/
def Place.Allows (place : Place) : Role → Prop
  | .head => place.IsHead
  | .branch => place.IsBranch
  | .expression | .datum => True

namespace Formed

variable {s : Stamp} {items : List Node} {n : Node} {index : Nat} {role : Role}

theorem item_of_datum (h : Formed .datum (.list s items)) (hn : n ∈ items) : Formed .datum n := by
  cases h with
  | quotedWord hword _ => cases hword
  | quotedList _ hitems => exact hitems n hn

theorem item_of_expression (h : Formed .expression (.list s items))
    (hn : items[index]? = some n) :
    ∃ role, Formed role n ∧ (Place.item s items index).Allows role := by
  cases h with
  | word hword => cases hword
  | data h => exact ⟨.datum, h.item_of_datum (List.mem_of_getElem? hn), trivial⟩
  | call hquoted hhead hargs =>
    cases index with
    | zero =>
      cases hn
      exact ⟨.head, hhead, s, _, rfl, hquoted⟩
    | succ index => exact ⟨.expression, hargs n (List.mem_of_getElem? hn), trivial⟩
  | @branching _ head args bs hquoted hbranches hhead hargs hbs =>
    cases index with
    | zero =>
      cases hn
      exact ⟨.head, hhead, s, _, rfl, hquoted⟩
    | succ index =>
      have hmem : n ∈ args ++ bs := List.mem_of_getElem? hn
      rcases List.mem_append.1 hmem with hn | hn
      · exact ⟨.expression, hargs n hn, trivial⟩
      · exact ⟨.branch, hbs n hn, s, head, args ++ bs, index, rfl, hquoted, hbranches⟩

theorem item (h : Formed role (.list s items)) (hn : items[index]? = some n) :
    ∃ role', Formed role' n ∧ (Place.item s items index).Allows role' := by
  cases role with
  | expression => exact h.item_of_expression hn
  | datum => exact ⟨.datum, h.item_of_datum (List.mem_of_getElem? hn), trivial⟩
  | head =>
    cases h with
    | head _ h => exact h.item_of_expression hn
  | branch =>
    cases h with
    | branch _ _ hpattern hbody =>
      have hn := List.mem_of_getElem? hn
      simp only [List.mem_cons, List.not_mem_nil, or_false] at hn
      rcases hn with rfl | rfl
      · exact ⟨.expression, hpattern, trivial⟩
      · exact ⟨.expression, hbody, trivial⟩

theorem body_of_expression {params : List String} {body : List Node}
    (h : Formed .expression (.function s params body)) (hn : n ∈ body) : Formed .expression n := by
  cases h with
  | word hword => cases hword
  | function hbody => exact hbody n hn

theorem body {params : List String} {body : List Node}
    (h : Formed role (.function s params body)) (hn : n ∈ body) : Formed .expression n := by
  cases role with
  | expression => exact h.body_of_expression hn
  | head =>
    cases h with
    | head _ h => exact h.body_of_expression hn
  | branch => cases h
  | datum =>
    cases h with
    | quotedWord hword _ => cases hword

theorem not_rawAst : ¬ Formed role (.rawAst s n) := by
  have hexpression : ¬ Formed .expression (.rawAst s n) := by
    intro h
    cases h with
    | word hword => cases hword
  intro h
  cases h with
  | word hword => cases hword
  | head _ h => exact hexpression h
  | quotedWord hword _ => cases hword

end Formed

/-- In the tree of an expression each node has a role that its place allows. -/
theorem Occurs.formed {root n : Node} {place : Place} (h : root.Occurs place n)
    (hroot : Formed .expression root) : ∃ role, Formed role n ∧ place.Allows role := by
  induction h with
  | top => exact ⟨.expression, hroot, trivial⟩
  | item _ hn ih =>
    obtain ⟨role, hlist, -⟩ := ih
    exact hlist.item hn
  | body _ hn ih =>
    obtain ⟨role, hfunction, -⟩ := ih
    exact ⟨.expression, hfunction.body hn, trivial⟩
  | held _ ih =>
    obtain ⟨role, hheld, -⟩ := ih
    exact absurd hheld Formed.not_rawAst

/-! ## What roles say -/

namespace Formed

variable {s : Stamp} {items : List Node} {n : Node} {place : Place} {role : Role}

theorem startsCall (h : Formed .head n) : n.startsCall = true := by
  cases h with
  | operator => rfl
  | head hstarts _ => exact hstarts

/-- A list that is not quoted is a branch or a call. -/
theorem unquoted_cases (h : Formed role (.list s items)) (hquoted : s.quoted = false) :
    (role = .branch ∧ s.label = "branch" ∧ items.length = 2) ∨
      ∃ head args, items = head :: args ∧ head.startsCall = true := by
  have hexpression : ∀ {items}, Formed .expression (.list s items) →
      ∃ head args, items = head :: args ∧ head.startsCall = true := by
    intro items h
    cases h with
    | word hword => cases hword
    | data h =>
      cases h with
      | quotedWord hword _ => cases hword
      | quotedList htrue _ => simp [hquoted] at htrue
    | call _ hhead _ => exact ⟨_, _, rfl, hhead.startsCall⟩
    | branching _ _ hhead _ _ => exact ⟨_, _, rfl, hhead.startsCall⟩
  cases role with
  | expression => exact .inr (hexpression h)
  | head =>
    cases h with
    | head _ h => exact .inr (hexpression h)
  | branch =>
    cases h with
    | branch hlabel _ _ _ => exact .inl ⟨rfl, hlabel, rfl⟩
  | datum =>
    cases h with
    | quotedWord hword _ => cases hword
    | quotedList htrue _ => simp [hquoted] at htrue

theorem role_of_operator {name : String} (h : Formed role (.operator s name)) : role = .head := by
  cases h with
  | word hword => cases hword
  | operator => rfl
  | head _ h => rfl
  | quotedWord hword _ => cases hword

theorem datum_of_quoted (h : Formed role (.list s items)) (hquoted : s.quoted = true) :
    Formed .datum (.list s items) := by
  have hexpression : ∀ {items}, Formed .expression (.list s items) →
      Formed .datum (.list s items) := by
    intro items h
    cases h with
    | word hword => cases hword
    | data h => exact h
    | call hfalse _ _ | branching hfalse _ _ _ _ => simp [hquoted] at hfalse
  cases role with
  | expression => exact hexpression h
  | head =>
    cases h with
    | head _ h => exact hexpression h
  | branch =>
    cases h with
    | branch _ hfalse _ _ => simp [hquoted] at hfalse
  | datum => exact h

/-- All that is in quoted data is quoted data. -/
theorem of_reaches {m : Node} (h : Formed .datum n) (hreaches : n.Reaches m) :
    Formed .datum m := by
  induction hreaches with
  | refl => exact h
  | item hmem _ ih => exact ih (h.item_of_datum hmem)

theorem quoted_of_datum (h : Formed .datum n) :
    n.stamp.quoted = true ∧ n.isDataKind = true := by
  cases h with
  | quotedWord hword hquoted => exact ⟨hquoted, by simp [isDataKind, hword]⟩
  | quotedList hquoted _ => exact ⟨hquoted, rfl⟩

end Formed

end Node

end ExprShell
