/-
How `match` selects a branch. Of branches whose patterns have constant operands, the first whose
pattern holds of the scrutinee is taken: its captures are bound, as `let` would bind them, and its
body is evaluated. Patterns before it leave no trace. The exception is `cons`: tried on what is no
list with items, it ends the selection with a fault (`Session.evalNode_selection`).

Trying a pattern is computed by `Eval.evalPattern`; what the pattern means is said by `Pattern`.
The two are connected once, for each way to write a pattern (`Eval.evalPattern_decides`).
-/
import ExprShell.Machine.Host
import ExprShell.Proofs.Eval.StackDiscipline
import ExprShell.Proofs.Pattern.Meaning
import Mathlib.Data.List.Forall2

namespace ExprShell

variable {σ : Type}

namespace Pattern

/-- The result of trying a pattern is what the pattern means. -/
structure Decides (p : Pattern) (v : Node) (r : Except Fault (Option Captures)) : Prop where
  holds : p.Holds v → r = .ok (some (p.captures v))
  passes : p.Passes v → r = .ok none
  refuses : ¬ p.Holds v → p.demands = true → r = .error (refusal v)

/-- A pattern that makes no demands is decided by a test of its condition. -/
theorem Decides.of_test {p : Pattern} {v : Node} {b : Bool} {cs : Captures}
    (hdemands : p.demands = false) (hb : b = true ↔ p.Holds v) (hcs : p.captures v = cs) :
    p.Decides v (.ok (if b then some cs else none)) where
  holds h := by rw [if_pos (hb.2 h), hcs]
  passes h := by rw [if_neg fun hb' => h.1 (hb.1 hb')]
  refuses _ h := by rw [hdemands] at h; cases h

theorem quoted_decides (n v : Node) : (Pattern.quoted n).Decides v (.ok (n.matches? v)) where
  holds h := by rw [(Node.matches?_eq_some_iff n v).2 ⟨h, rfl⟩]; rfl
  passes h := by
    have hnone : n.matches? v = none := by
      refine Option.eq_none_iff_forall_ne_some.2 fun cs hcs => h.1 ?_
      exact ((Node.matches?_eq_some_iff n v).1 hcs).1
    rw [hnone]
  refuses _ h := by cases h

theorem relation_decides {r : Relation} {operand : Node} (htakes : r.takes operand = true)
    (v : Node) : (Pattern.relation r none operand).Decides v (r.test none v operand) := by
  obtain ⟨b, hb, hiff⟩ := Relation.holds_of_takes htakes v
  have htest : r.test none v operand = .ok (if b then some [] else none) := by
    unfold Relation.test
    rw [hb]
    cases b with
    | _ => rfl
  rw [htest]
  exact .of_test rfl hiff rfl

theorem capturing_decides {r : Relation} {operand : Node} (htakes : r.takes operand = true)
    (u : Stamp) (name : String) (v : Node) : (Pattern.relation r (some name) operand).Decides v
      (r.test (some (.identifier u name)) v operand) := by
  obtain ⟨b, hb, hiff⟩ := Relation.holds_of_takes htakes v
  have htest : r.test (some (.identifier u name)) v operand =
      .ok (if b then some [(name, v)] else none) := by
    unfold Relation.test
    rw [hb]
    cases b with
    | _ => rfl
  rw [htest]
  exact .of_test rfl hiff rfl

theorem cons_decides (u w : Stamp) (head tail : String) (v : Node) :
    (Pattern.cons head tail).Decides v
      (some <$> Node.destructure v (.identifier u head) (.identifier w tail)) where
  holds := by
    rintro ⟨s, first, rest, rfl⟩
    rfl
  passes h := by cases h.2
  refuses h _ := by
    cases v with
    | list s items =>
      cases items with
      | nil => rfl
      | cons first rest => exact absurd ⟨s, first, rest, rfl⟩ h
    | _ => rfl

end Pattern

namespace Eval

variable (setup : Setup σ) (re : Reentry σ)

theorem evalNode_literal {n : Node} (h : n.isLiteral = true) :
    evalNode setup re n = pure n := by
  cases n with
  | list s items =>
    have hs : s.quoted = true := h
    rw [evalNode, if_pos hs]
  | number | string | boolean => rfl
  | _ => cases h

theorem evalPattern_quoted (v : Node) {n : Node} (h : n.isData = true) :
    evalPattern setup re v n = pure (n.matches? v) := by
  cases n with
  | list s items =>
    have hs : s.quoted = true := h
    unfold evalPattern
    split
    all_goals simp_all
  | _ => cases h

/-- Trying a pattern changes nothing and finds what the pattern means. -/
theorem evalPattern_decides {p : Pattern} {node : Node} (h : p.Spells node) (v : Node) :
    ∃ r, evalPattern setup re v node = ofExcept r ∧ p.Decides v r := by
  cases h with
  | wildcard => exact ⟨_, rfl, .of_test (b := true) rfl (iff_of_true rfl trivial) rfl⟩
  | constant hn hdata =>
    refine ⟨.ok (if node.same v then some [] else none), ?_, .of_test rfl Iff.rfl rfl⟩
    cases node with
    | number | string | boolean => rfl
    | list s items => exact absurd (hdata.symm.trans hn) Bool.false_ne_true
    | _ => cases hn
  | quoted hdata =>
    refine ⟨.ok (node.matches? v), ?_, Pattern.quoted_decides node v⟩
    exact evalPattern_quoted setup re v hdata
  | @relation s t r operand hs htakes =>
    refine ⟨_, ?_, Pattern.relation_decides htakes v⟩
    rw [evalPattern, if_neg (by rw [hs]; decide), Relation.ofHead?, Relation.ofName?_name]
    dsimp only
    rw [evalNode_literal setup re (Relation.isLiteral_of_takes htakes)]
    rfl
  | @capturing s t u r name operand hs htakes =>
    refine ⟨_, ?_, Pattern.capturing_decides htakes u name v⟩
    rw [evalPattern, if_neg (by rw [hs]; decide), Relation.ofHead?, Relation.ofName?_name]
    dsimp only
    rw [evalNode_literal setup re (Relation.isLiteral_of_takes htakes)]
    rfl
  | @cons s t u w head tail hs =>
    refine ⟨_, ?_, Pattern.cons_decides u w head tail v⟩
    rw [evalPattern, if_neg (by rw [hs]; decide)]
    change (ofExcept (Node.destructure v (.identifier u head) (.identifier w tail)) >>= fun cs =>
      pure (some cs) : Eval σ (Option Captures)) = _
    cases Node.destructure v (.identifier u head) (.identifier w tail) with
    | _ => rfl

/-! ## Branches -/

/-- The nodes are branches with these patterns and bodies. -/
def Branches (branches : List (Pattern × Node)) (nodes : List Node) : Prop :=
  List.Forall₂ (fun branch node => ∃ s spelled,
    node = .list s [spelled, branch.2] ∧ branch.1.Spells spelled) branches nodes

section Branches

variable {p : Pattern} {spelled v : Node} (hspells : p.Spells spelled) (stamp : Stamp)
  (body : Node) (rest : List Node) (s : State σ)

include hspells

theorem evalBranches_of_holds (h : p.Holds v) :
    evalBranches setup re v (.list stamp [spelled, body] :: rest) s =
      evalNode setup re body { s with env := s.env.bindAll (p.captures v) } := by
  obtain ⟨r, htried, hr⟩ := evalPattern_decides setup re hspells v
  rw [evalBranches, htried, hr.holds h]
  rfl

theorem evalBranches_of_passes (h : p.Passes v) :
    evalBranches setup re v (.list stamp [spelled, body] :: rest) s =
      evalBranches setup re v rest s := by
  obtain ⟨r, htried, hr⟩ := evalPattern_decides setup re hspells v
  rw [evalBranches, htried, hr.passes h]
  rfl

theorem evalBranches_of_refuses (h : ¬ p.Holds v) (hdemands : p.demands = true) :
    evalBranches setup re v (.list stamp [spelled, body] :: rest) s =
      (.error (.fault (Pattern.refusal v)), s) := by
  obtain ⟨r, htried, hr⟩ := evalPattern_decides setup re hspells v
  rw [evalBranches, htried, hr.refuses h hdemands]
  rfl

end Branches

/-- Branches that the scrutinee goes by can be left out. -/
theorem evalBranches_append {before others : List (Pattern × Node)} {nodes : List Node} {v : Node}
    (hnodes : Branches (before ++ others) nodes) (h : ∀ branch ∈ before, branch.1.Passes v)
    (s : State σ) : ∃ rest, Branches others rest ∧
      evalBranches setup re v nodes s = evalBranches setup re v rest s := by
  induction before generalizing nodes with
  | nil => exact ⟨nodes, hnodes, rfl⟩
  | cons branch before ih =>
    cases hnodes with
    | cons hnode hnodes =>
      obtain ⟨stamp, spelled, rfl, hspells⟩ := hnode
      obtain ⟨rest, hrest, heq⟩ := ih hnodes fun b hb => h b (List.mem_cons_of_mem _ hb)
      refine ⟨rest, hrest, ?_⟩
      rw [evalBranches_of_passes setup re hspells _ _ _ _ (h branch List.mem_cons_self), heq]

theorem evalCall_selection {t : Stamp} {n v : Node} {nodes : List Node} {s s' : State σ}
    (h : evalNode setup re n s = (.ok v, s')) :
    evalCall setup re (.operator t Form.selection.name :: n :: nodes) s =
      evalBranches setup re v nodes s' := by
  rw [evalCall, Form.ofName?_name]
  dsimp only
  rw [evalMatch]
  exact bind_of_ok h

end Eval

namespace Session

variable (setup : Setup σ)

theorem evalNode_frameDepth {n v : Node} {s s' : State σ}
    (h : evalNode setup n s = (.ok v, s')) : s'.env.frameDepth = s.env.frameDepth := by
  have hkeeps := (Eval.keepingCongruence setup).evalNode
    (Eval.reentry_keeps setup s.env.frameDepth) n s
  have hs : s' = (evalNode setup n s).2 := by rw [h]
  rw [hs]
  exact hkeeps.frameDepth

/-- **The branch that `match` selects.** The scrutinee has a value, and the branches have patterns
with constant operands. After branches that the value goes by, a branch whose pattern holds is
taken, and its body is evaluated with the captures bound; one that takes apart what cannot be is
a fault, and no body is evaluated. If the value goes by all branches the outcome is `false`. -/
theorem evalNode_selection {stamp t : Stamp} (hstamp : stamp.quoted = false) {n v : Node}
    {s s' : State σ} (hv : evalNode setup n s = (.ok v, s'))
    {branches : List (Pattern × Node)} {nodes : List Node} (hnodes : Eval.Branches branches nodes) :
    let outcome := evalNode setup (.list stamp (.operator t Form.selection.name :: n :: nodes)) s
    (∀ before p body others, branches = before ++ (p, body) :: others →
      (∀ branch ∈ before, branch.1.Passes v) →
        (p.Holds v → outcome = evalNode setup body { s' with
          env := (p.captures v).foldl (fun e entry => e.bind entry.1 entry.2) s'.env }) ∧
        (¬ p.Holds v → p.demands = true →
          outcome = (.error (.fault (Pattern.refusal v)), s'))) ∧
    ((∀ branch ∈ branches, branch.1.Passes v) → outcome = (.ok (.ofBool false), s')) := by
  intro outcome
  let re := setup.reentry s.env.frameDepth
  have houtcome : outcome = Eval.evalBranches setup re v nodes s' := by
    change Eval.evalNode setup re _ s = _
    rw [Eval.evalNode, if_neg (by rw [hstamp]; decide)]
    exact Eval.evalCall_selection setup re hv
  rw [houtcome]
  constructor
  · rintro before p body others rfl hbefore
    obtain ⟨rest, hrest, heq⟩ := Eval.evalBranches_append setup re hnodes hbefore s'
    rw [heq]
    cases hrest with
    | cons hnode _ =>
      obtain ⟨stamp', spelled, rfl, hspells⟩ := hnode
      constructor
      · intro hholds
        -- The body is evaluated with as many frames active as the whole `match`.
        have hdepth : (s'.env.bindAll (p.captures v)).frameDepth = s.env.frameDepth :=
          (Environment.Keeps.setCurrent s'.env _).frameDepth.trans (evalNode_frameDepth setup hv)
        rw [Eval.evalBranches_of_holds setup re hspells _ _ _ _ hholds,
          ← Environment.bindAll_eq_foldl, evalNode, hdepth]
      · intro hfails hdemands
        exact Eval.evalBranches_of_refuses setup re hspells _ _ _ _ hfails hdemands
  · intro hall
    have hnodes' : Eval.Branches (branches ++ []) nodes := by rwa [List.append_nil]
    obtain ⟨rest, hrest, heq⟩ := Eval.evalBranches_append setup re hnodes' hall s'
    rw [heq]
    cases hrest
    rfl

/-- The second branch of `match '[1 2] | '[a 3] => a | [cons a b] => b | _ => 0` is taken, and
the first one, which got as far as capturing `a`, leaves nothing behind. -/
theorem evalNode_selection_cons :
    let setup : Setup Machine := { host := Machine.host }
    let number (n : Int64) : Node := .ofInt64 n
    let name (text : String) : Node := .identifier {} text
    let branches : List (Pattern × Node) := [
      (.quoted (.data [name "a", number 3]), name "a"), (.cons "a" "b", name "b"),
      (.wildcard, number 0)]
    let nodes : List Node := [
      .call [.data [name "a", number 3], name "a"],
      .call [.call [.operator {} "cons", name "a", name "b"], name "b"],
      .call [name "_", number 0]]
    let s := start Machine.fresh
    Eval.Branches branches nodes ∧
      evalNode setup (.call (.operator {} "match" :: .data [number 1, number 2] :: nodes)) s =
        (.ok (.data [number 2]),
          { s with env := { dynamic := [("b", .data [number 2]), ("a", number 1)] } }) := by
  intro setup number name branches nodes s
  have hnodes : Eval.Branches branches nodes := by
    refine .cons ⟨_, _, rfl, .quoted rfl⟩ (.cons ⟨_, _, rfl, .cons rfl⟩ (.cons ?_ .nil))
    exact ⟨_, _, rfl, .wildcard⟩
  refine ⟨hnodes, ?_⟩
  have hstamp : ({} : Stamp).quoted = false := rfl
  have hv : evalNode setup (.data [number 1, number 2]) s =
      (.ok (.data [number 1, number 2]), s) := rfl
  have h := (evalNode_selection setup (t := {}) hstamp hv hnodes).1 [_] _ _ _ rfl ?_
  · exact h.1 ⟨_, _, _, rfl⟩
  · intro branch hbranch
    cases List.mem_singleton.1 hbranch
    have hfails : ¬ (Node.data [name "a", number 3]).Covers (.data [number 1, number 2]) := by
      decide
    exact ⟨hfails, rfl⟩

/-- In `match 5 | [cons a b] => 1 | _ => 2` the second branch is not taken, though its pattern is
the first that holds. -/
theorem evalNode_cons_number :
    let setup : Setup Machine := { host := Machine.host }
    let name (text : String) : Node := .identifier {} text
    let branches : List (Pattern × Node) :=
      [(.cons "a" "b", .ofInt64 1), (.wildcard, .ofInt64 2)]
    let nodes : List Node := [
      .call [.call [.operator {} "cons", name "a", name "b"], .ofInt64 1],
      .call [name "_", .ofInt64 2]]
    Eval.Branches branches nodes ∧
      ¬ (Pattern.cons "a" "b").Holds (.ofInt64 5) ∧ Pattern.wildcard.Holds (.ofInt64 5) ∧
      evalNode setup (.call (.operator {} "match" :: .ofInt64 5 :: nodes)) (start Machine.fresh) =
        (.error (.fault (.mistyped "a list to destructure" "number")), start Machine.fresh) := by
  refine ⟨?_, ?_, trivial, rfl⟩
  · exact .cons ⟨_, _, rfl, .cons rfl⟩ (.cons ⟨_, _, rfl, .wildcard⟩ .nil)
  · rintro ⟨s, first, rest, hlist⟩
    cases hlist

end Session

end ExprShell
