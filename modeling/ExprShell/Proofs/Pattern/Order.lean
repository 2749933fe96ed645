/-
Patterns of order and the tools of the same names (`Eval.order_patterns_agree`). A pattern compares
signed words, into which an unsigned one may wrap around, and a tool compares values. Between
numbers that are both in the signed range, or both above it, the two orders are one
(`Number.truncate_lt_iff`), and what a pattern of order says of them is which way they compare
(`Relation.relates_numbers_iff`).
-/
import ExprShell.Proofs.Eval.Selection
import ExprShell.Proofs.Number

namespace ExprShell

variable {σ : Type}

/-! ## Three ways to compare -/

/-- The relation that holds between numbers which compare one way: `<`, `=` or `>`. -/
def Relation.ofOrdering : Ordering → Relation
  | .lt => less
  | .eq => equal
  | .gt => greater

/-- The tool for numbers which compare one way: `<`, `=` or `>`. -/
def Tool.ofOrdering : Ordering → Tool
  | .lt => comparison .lt
  | .eq => equal
  | .gt => comparison .gt

/-- The tool of the same name as the relation. -/
theorem Tool.find?_ofOrdering (o : Ordering) :
    find? standard (Relation.ofOrdering o).name = some (ofOrdering o) := by
  cases o with
  | _ => rfl

theorem Relation.takes_number (o : Ordering) (s : Stamp) (n : Number) :
    (ofOrdering o).takes (.number s n) = true := by
  cases o with
  | _ => rfl

/-- Off the end of the signed range, a relation of order says which way the values compare. -/
theorem Relation.relates_numbers_iff {m n : Number}
    (h : n.value ≤ Number.maxSigned ↔ m.value ≤ Number.maxSigned) (o : Ordering) (s t : Stamp) :
    (ofOrdering o).Relates (.number s n) (.number t m) ↔ compare n.value m.value = o := by
  cases o with
  | lt =>
    rw [Int.compare_eq_lt, ← Number.truncate_lt_iff h]
    constructor
    · rintro ⟨_, _, _, _, hn, hm, hlt⟩
      cases hn
      cases hm
      exact hlt
    · intro hlt
      exact ⟨s, t, n, m, rfl, rfl, hlt⟩
  | eq =>
    have hsame : (ofOrdering .eq).Relates (.number s n) (.number t m) ↔ m.value = n.value := by
      change (m.value == n.value) = true ↔ _
      exact beq_iff_eq
    rw [hsame, Int.compare_eq_eq, eq_comm]
  | gt =>
    rw [Int.compare_eq_gt, ← Number.truncate_lt_iff h.symm]
    constructor
    · rintro ⟨_, _, _, _, hn, hm, hlt⟩
      cases hn
      cases hm
      exact hlt
    · intro hlt
      exact ⟨s, t, n, m, rfl, rfl, hlt⟩

/-- A tool of order says which way the values compare, wherever they are. -/
theorem Tool.call_ofOrdering (host : Host σ) (path : List String) (o : Ordering) (s t : Stamp)
    (n m : Number) (state : State σ) :
    (ofOrdering o).call host path [.number s n, .number t m] state =
      (.ok (.ofBool (compare n.value m.value == o)), state) := by
  cases o with
  | lt | gt => rfl
  | eq =>
    have hsame : (n.value == m.value) = (compare n.value m.value == .eq) := by
      rw [Bool.eq_iff_iff, beq_iff_eq, beq_iff_eq, Int.compare_eq_eq]
    rw [← hsame]
    rfl

/-! ## Patterns -/

namespace Eval

variable (setup : Setup σ) (re : Reentry σ)

/-- Trying the pattern on the scrutinee succeeds, so its branch is taken. -/
def Matches (scrutinee pattern : Node) (s : State σ) : Prop :=
  ∃ captures s', evalPattern setup re scrutinee pattern s = (.ok (some captures), s')

/-- The operand of a relation is evaluated, and then the relation is asked. -/
theorem evalPattern_relation {p : Stamp} (hp : p.quoted = false) (t : Stamp) (r : Relation)
    (scrutinee operand : Node) :
    evalPattern setup re scrutinee (.list p [.operator t r.name, operand]) =
      evalNode setup re operand >>= fun value => ofExcept (r.test none scrutinee value) := by
  rw [evalPattern, if_neg (by rw [hp]; decide), Relation.ofHead?, Relation.ofName?_name]

theorem evalPattern_capturing {p : Stamp} (hp : p.quoted = false) (t : Stamp) (r : Relation)
    (scrutinee capture operand : Node) :
    evalPattern setup re scrutinee (.list p [.operator t r.name, capture, operand]) =
      evalNode setup re operand >>= fun value =>
        ofExcept (r.test (some capture) scrutinee value) := by
  rw [evalPattern, if_neg (by rw [hp]; decide), Relation.ofHead?, Relation.ofName?_name]

/-- A pattern that makes no demands succeeds where it holds. -/
theorem exists_captures_iff {p : Pattern} {v : Node} {r : Except Fault (Option Captures)}
    (h : p.Decides v r) (hdemands : p.demands = false) (s : State σ) :
    (∃ captures s', (ofExcept r : Eval σ _) s = (.ok (some captures), s')) ↔ p.Holds v := by
  constructor
  · rintro ⟨captures, s', htried⟩
    by_contra hfails
    rw [h.passes ⟨hfails, hdemands⟩] at htried
    cases htried
  · intro hholds
    rw [h.holds hholds]
    exact ⟨p.captures v, s, rfl⟩

section Order

variable {operand : Node} {b : Stamp} {n m : Number} {s s' : State σ}
  (hoperand : evalNode setup re operand s = (.ok (.number b m), s'))
  (hside : n.value ≤ Number.maxSigned ↔ m.value ≤ Number.maxSigned)
  {p : Stamp} (hp : p.quoted = false) (a t : Stamp) (o : Ordering)

include hoperand hside hp

theorem matches_relation_iff :
    Matches setup re (.number a n) (.list p [.operator t (Relation.ofOrdering o).name, operand]) s ↔
      compare n.value m.value = o := by
  have hdecides := Pattern.relation_decides (Relation.takes_number o b m) (.number a n)
  unfold Matches
  rw [evalPattern_relation setup re hp, bind_of_ok hoperand, exists_captures_iff hdecides rfl]
  exact Relation.relates_numbers_iff hside o a b

theorem matches_capturing_iff (u : Stamp) (name : String) :
    Matches setup re (.number a n)
        (.list p [.operator t (Relation.ofOrdering o).name, .identifier u name, operand]) s ↔
      compare n.value m.value = o := by
  have hdecides := Pattern.capturing_decides (Relation.takes_number o b m) u name (.number a n)
  unfold Matches
  rw [evalPattern_capturing setup re hp, bind_of_ok hoperand, exists_captures_iff hdecides rfl]
  exact Relation.relates_numbers_iff hside o a b

/-- **Patterns of order agree with the tools.** Let the operand of a pattern come to a number `m`,
and let the scrutinee be a number `n` on the same side of the end of the signed range. Then exactly
one of `[< m]`, `[= m]` and `[> m]` matches, each of them exactly when the tool of its name is true
of `n` and `m`, and with a name to capture the scrutinee each matches when it does without. -/
theorem order_patterns_agree (u : Stamp) (name : String) :
    let scrutinee : Node := .number a n
    let plain (o : Ordering) : Node := .list p [.operator t (Relation.ofOrdering o).name, operand]
    let capturing (o : Ordering) : Node :=
      .list p [.operator t (Relation.ofOrdering o).name, .identifier u name, operand]
    (∃ o, Matches setup re scrutinee (plain o) s ∧
      ∀ o', Matches setup re scrutinee (plain o') s → o' = o) ∧
    ∀ o, (∃ tool, Tool.find? Tool.standard (Relation.ofOrdering o).name = some tool ∧
        (Matches setup re scrutinee (plain o) s ↔
          tool.call setup.host setup.settings.searchPath [scrutinee, .number b m] s' =
            (.ok (.ofBool true), s'))) ∧
      (Matches setup re scrutinee (capturing o) s ↔ Matches setup re scrutinee (plain o) s) := by
  intro scrutinee plain capturing
  have hplain (o : Ordering) :
      Matches setup re scrutinee (plain o) s ↔ compare n.value m.value = o :=
    matches_relation_iff setup re hoperand hside hp a t o
  refine ⟨⟨compare n.value m.value, (hplain _).2 rfl, fun o ho => ((hplain o).1 ho).symm⟩, ?_⟩
  intro o
  refine ⟨⟨Tool.ofOrdering o, Tool.find?_ofOrdering o, ?_⟩, ?_⟩
  · rw [hplain, Tool.call_ofOrdering]
    constructor
    · intro ho
      rw [beq_iff_eq.2 ho]
    · intro hcall
      simpa [Node.ofBool] using hcall
  · rw [hplain]
    exact matches_capturing_iff setup re hoperand hside hp a t o u name

end Order

/-- Two numbers above the signed range, of which the scrutinee is the greater one. -/
theorem order_patterns_agree_unsigned :
    let setup : Setup Machine := { host := Machine.host }
    let re := setup.reentry 0
    let s := Session.start Machine.fresh
    let greater : Node := .ofNumber (.uint 0xffffffffffffffff)
    let least : Node := .ofNumber (.uint 0x8000000000000000)
    ((Number.uint 0xffffffffffffffff).value ≤ Number.maxSigned ↔
      (Number.uint 0x8000000000000000).value ≤ Number.maxSigned) ∧
    evalNode setup re least s = (.ok least, s) ∧
    ∃ o, Matches setup re greater (.call [.operator {} (Relation.ofOrdering o).name, least]) s ∧
      ∀ o', Matches setup re greater (.call [.operator {} (Relation.ofOrdering o').name, least]) s →
        o' = o := by
  intro setup re s greater least
  have hside : (Number.uint 0xffffffffffffffff).value ≤ Number.maxSigned ↔
      (Number.uint 0x8000000000000000).value ≤ Number.maxSigned := by decide
  have hoperand : evalNode setup re least s = (.ok least, s) := rfl
  exact ⟨hside, hoperand, (order_patterns_agree setup re hoperand hside rfl {} {} {} "x").1⟩

/-- Across the end of the signed range the two orders differ: in `[< 0]` the least number above the
range is a negative word. -/
example : Relation.less.holds (.ofNumber (.uint 0x8000000000000000)) (.ofInt64 0) = .ok true ∧
    Comparison.lt.apply (.ofNumber (.uint 0x8000000000000000)) (.ofInt64 0) =
      .ok (.ofBool false) :=
  ⟨rfl, rfl⟩

end Eval

end ExprShell
