/-
The depth of a node is how deep it stands (`readAll_depths`). A node gets its depth where it is
made, in some forms before the reader goes a level deeper and in others after it has come back. In
the end nothing of that is left to see: a node that was read stands where its stamp says
(`Node.Stands`), so the stamps of a tree go up by one with every node that holds another.
-/
import ExprShell.Proofs.Reader.Bound

namespace ExprShell

namespace Node

/-- The node is held by another one, right below it: as an item of a list, in the body of a
function, or as an expression that is not evaluated yet. -/
inductive HeldBy (n : Node) : Node → Prop where
  | item {s : Stamp} {items : List Node} : n ∈ items → HeldBy n (.list s items)
  | body {s : Stamp} {params : List String} {body : List Node} :
    n ∈ body → HeldBy n (.function s params body)
  | rawAst {s : Stamp} : HeldBy n (.rawAst s n)

/-- The node stands so many levels below the root of a tree. -/
inductive Below (root : Node) : Nat → Node → Prop where
  | root : Below root 0 root
  | held {level : Nat} {outer n : Node} :
    Below root level outer → n.HeldBy outer → Below root (level + 1) n

namespace Stands

variable {bound depth level : Nat} {root outer n : Node}

theorem stamp_depth (h : Stands bound depth n) : n.stamp.depth = depth := by
  cases h with
  | leaf _ hstamp _ => exact hstamp
  | list hstamp _ _ => exact hstamp
  | function hstamp _ _ => exact hstamp

theorem of_heldBy (h : Stands bound depth outer) (hn : n.HeldBy outer) :
    Stands bound (depth + 1) n := by
  cases hn with
  | item hmem =>
    cases h with
    | leaf hleaf _ _ => cases hleaf
    | list _ _ hitems => exact hitems n hmem
  | body hmem =>
    cases h with
    | leaf hleaf _ _ => cases hleaf
    | function _ _ hbody => exact hbody n hmem
  | rawAst =>
    cases h with
    | leaf hleaf _ _ => cases hleaf

theorem of_below (h : Stands bound depth root) (hn : root.Below level n) :
    Stands bound (depth + level) n := by
  induction hn with
  | root => exact h
  | held _ hheld ih => exact ih.of_heldBy hheld

end Stands

end Node

namespace Reader

variable {tokens : List Token} {maxDepth : Nat} {nodes : List Node} {r : Reader} {root : Node}

/-- The trees of a program stand at depth zero. -/
theorem stands_of_readAll_ok (h : (ofTokens tokens maxDepth).readAll = (.ok nodes, r)) :
    ∀ n ∈ nodes, Node.Stands maxDepth 0 n :=
  (runs_of_readAll_ok h).places (Goal.program.places_plan (Nat.zero_le maxDepth)) rfl

/-- **Depths are levels.** In a program that a fresh reader has read, whatever the tokens and the
bound, the nodes at the top have depth zero, and what a list holds or the body of a function has a
depth one more than the list or the function. So the depth of a node says how many nodes are
around it. -/
theorem readAll_depths (h : (ofTokens tokens maxDepth).readAll = (.ok nodes, r))
    (hroot : root ∈ nodes) :
    root.stamp.depth = 0 ∧
    ∀ level outer, root.Below level outer → outer.stamp.depth = level ∧
      ∀ n : Node, n.HeldBy outer → n.stamp.depth = outer.stamp.depth + 1 := by
  have hstands := stands_of_readAll_ok h root hroot
  refine ⟨hstands.stamp_depth, fun level outer hbelow => ?_⟩
  have houter : Node.Stands maxDepth (0 + level) outer := hstands.of_below hbelow
  rw [Nat.zero_add] at houter
  refine ⟨houter.stamp_depth, fun n hn => ?_⟩
  rw [(houter.of_heldBy hn).stamp_depth, houter.stamp_depth]

/-- A function whose body is a block with a bare call, the argument of which is quoted data: the
word in the data is on the third level. -/
theorem readAll_depths_function :
    let tokens : List Token := [⟨"(", 1⟩, ⟨"x", 1⟩, ⟨")", 1⟩, ⟨"=>", 1⟩, ⟨"\x7b", 1⟩, ⟨"f", 1⟩,
      ⟨"'[", 1⟩, ⟨"a", 1⟩, ⟨"]", 1⟩, ⟨";", 1⟩, ⟨"\x7d", 1⟩]
    let word : Node := .identifier { depth := 3, quoted := true } "a"
    let data : Node := .list { depth := 2, quoted := true } [word]
    let call := callAt 1 [operatorAt 2 "f", data]
    let root : Node := .function {} ["x"] [call]
    (∃ r, (ofTokens tokens 3).readAll = (.ok [root], r)) ∧ root.Below 2 data ∧
      word.HeldBy data ∧ data.stamp.depth = 2 ∧ word.stamp.depth = data.stamp.depth + 1 := by
  intro tokens word data call root
  have hitems : Runs ⟨3, 1⟩ ((Goal.items .quotedBracket ⟨"'[", 1⟩ true true).plan 3)
      [⟨"a", 1⟩, ⟨"]", 1⟩, ⟨";", 1⟩, ⟨"\x7d", 1⟩] (.ok ([word], [⟨";", 1⟩, ⟨"\x7d", 1⟩])) :=
    .peek (.readOk (.peek (.shift .give)) (.readOk (.peek (.shift .give)) .give))
  have hargs : Runs ⟨3, 1⟩ ((Goal.bareArgs ⟨"f", 1⟩).plan 2)
      [⟨"'[", 1⟩, ⟨"a", 1⟩, ⟨"]", 1⟩, ⟨";", 1⟩, ⟨"\x7d", 1⟩] (.ok ([data], [⟨"\x7d", 1⟩])) :=
    .peek (.readOk (.peek (.shift (.deeper (by decide) (.readOk hitems .give))))
      (.readOk (.peek (.shift .give)) .give))
  have hcall : Runs ⟨3, 1⟩ (Goal.statement.plan 1)
      [⟨"f", 1⟩, ⟨"'[", 1⟩, ⟨"a", 1⟩, ⟨"]", 1⟩, ⟨";", 1⟩, ⟨"\x7d", 1⟩]
      (.ok ([call], [⟨"\x7d", 1⟩])) :=
    .peek (.shift (.peek (.just (.deeper (by decide) (.readOk hargs .give)))))
  have hbody : Runs ⟨3, 1⟩ ((Goal.functionBody ⟨"(", 1⟩).plan 0)
      [⟨"\x7b", 1⟩, ⟨"f", 1⟩, ⟨"'[", 1⟩, ⟨"a", 1⟩, ⟨"]", 1⟩, ⟨";", 1⟩, ⟨"\x7d", 1⟩]
      (.ok ([call], [])) :=
    .peek (.shift (.deeper (by decide)
      (.readOk (.peek (.readOk hcall (.readOk (.peek (.shift .give)) .give))) .give)))
  have hparams : Runs ⟨3, 1⟩ ((Goal.items .paren ⟨"(", 1⟩ false true).plan 1)
      [⟨"x", 1⟩, ⟨")", 1⟩, ⟨"=>", 1⟩, ⟨"\x7b", 1⟩, ⟨"f", 1⟩, ⟨"'[", 1⟩, ⟨"a", 1⟩, ⟨"]", 1⟩,
        ⟨";", 1⟩, ⟨"\x7d", 1⟩]
      (.ok ([nameAt 1 "x"], [⟨"=>", 1⟩, ⟨"\x7b", 1⟩, ⟨"f", 1⟩, ⟨"'[", 1⟩, ⟨"a", 1⟩, ⟨"]", 1⟩,
        ⟨";", 1⟩, ⟨"\x7d", 1⟩])) :=
    .peek (.readOk (.peek (.shift .give)) (.readOk (.peek (.shift .give)) .give))
  have hfunction : Runs ⟨3, 1⟩ (Goal.program.plan 0) tokens (.ok ([root], [])) := by
    refine runs_program (by decide) (.peek (.just (.peek (.shift ?_))))
    exact .deeper (by decide) (.readOk hparams (.peek (.shift (.readOk hbody .give))))
  have hread := readAll_of_runs hfunction rfl
  have hbelow : root.Below 2 data :=
    .held (.held .root (.body (List.mem_singleton_self _))) (.item (by simp))
  have hword : word.HeldBy data := .item (List.mem_singleton_self _)
  have hdepths := (readAll_depths hread (List.mem_singleton_self root)).2 2 data hbelow
  exact ⟨⟨_, hread⟩, hbelow, hword, hdepths.1, hdepths.2 word hword⟩

end Reader

end ExprShell
