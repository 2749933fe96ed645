/-
What the patterns of `match` mean, apart from how they are tried. A quoted pattern is read by
places: a value matches if it has, wherever the pattern has something, something that fits
(`Node.Covers`), and each name of the pattern stands for what the value has in its place
(`Node.captured`). Matching item by item comes to the same (`Node.matches?_eq_some_iff`).

`Pattern` has the patterns whose operands are constants, with the condition of each
(`Pattern.Holds`) and its captures (`Pattern.captures`).
-/
import ExprShell.Pattern

namespace ExprShell

/-! ## Places -/

namespace Node

/-- What a node has at a place, which is given by the positions in the lists around it. -/
def part? : Node → List Nat → Option Node
  | n, [] => some n
  | .list _ items, i :: place => items[i]?.bind fun item => part? item place
  | _, _ :: _ => none

/-- One place of a pattern fits one of a value: a name fits anything, a list fits a list of as
many items, and everything else fits its equal. -/
def fits : Node → Node → Bool
  | .identifier .., _ => true
  | .list _ ps, .list _ vs => ps.length == vs.length
  | p, v => p.same v

/-- Wherever the pattern has something, the value has something that fits. -/
def Covers (p v : Node) : Prop :=
  ∀ place p', p.part? place = some p' → ∃ v', v.part? place = some v' ∧ p'.fits v' = true

/-- The same of two lists, item by item. -/
def CoversAll (ps vs : List Node) : Prop :=
  ps.length = vs.length ∧ ∀ (i : Nat) p v, ps[i]? = some p → vs[i]? = some v → p.Covers v

mutual

/-- The names in a pattern, but for the wildcard, and their places from left to right. -/
def names : Node → List (String × List Nat)
  | .identifier _ name => if name = "_" then [] else [(name, [])]
  | .list _ items => namesFrom 0 items
  | _ => []

/-- The names in items of a list, the first of which has position `i`. -/
def namesFrom (i : Nat) : List Node → List (String × List Nat)
  | [] => []
  | n :: rest => n.names.map (fun found => (found.1, i :: found.2)) ++ namesFrom (i + 1) rest

end

/-- The names with what the value has in their places. -/
def captured (p v : Node) : Captures :=
  p.names.filterMap fun found => (v.part? found.2).map (found.1, ·)

@[simp] theorem part?_nil (n : Node) : n.part? [] = some n := by
  cases n with
  | _ => rfl

@[simp] theorem part?_cons (s : Stamp) (items : List Node) (i : Nat) (place : List Nat) :
    part? (.list s items) (i :: place) = items[i]?.bind fun item => item.part? place := rfl

/-- A pattern without parts covers what it fits. -/
theorem covers_iff_fits {p v : Node} (h : ∀ i place, p.part? (i :: place) = none) :
    p.Covers v ↔ p.fits v = true := by
  constructor
  · intro hcovers
    obtain ⟨v', hv, hfits⟩ := hcovers [] p (part?_nil p)
    rw [part?_nil] at hv
    cases hv
    exact hfits
  · intro hfits place p' hp
    cases place with
    | nil =>
      rw [part?_nil] at hp
      cases hp
      exact ⟨v, part?_nil v, hfits⟩
    | cons i place =>
      rw [h] at hp
      cases hp

theorem covers_list {s t : Stamp} {ps vs : List Node} :
    Covers (.list s ps) (.list t vs) ↔ CoversAll ps vs := by
  constructor
  · intro hcovers
    constructor
    · obtain ⟨v', hv, hfits⟩ := hcovers [] _ rfl
      cases hv
      simpa [fits] using hfits
    · intro i p v hp hv place p' hp'
      have hpart : part? (.list s ps) (i :: place) = some p' := by simp [hp, hp']
      obtain ⟨v', hv', hfits⟩ := hcovers _ _ hpart
      exact ⟨v', by simpa [hv] using hv', hfits⟩
  · rintro ⟨hlength, hitems⟩ place p' hp'
    cases place with
    | nil =>
      cases hp'
      exact ⟨_, rfl, by simpa [fits] using hlength⟩
    | cons i place =>
      obtain ⟨p, hp, hpart⟩ := Option.bind_eq_some_iff.1 hp'
      have hi : i < vs.length := hlength ▸ (List.getElem?_eq_some_iff.1 hp).1
      have hv := List.getElem?_eq_getElem hi
      obtain ⟨v', hv', hfits⟩ := hitems i p vs[i] hp hv place p' hpart
      exact ⟨v', by simpa [hv] using hv', hfits⟩

theorem coversAll_cons {p v : Node} {ps vs : List Node} :
    CoversAll (p :: ps) (v :: vs) ↔ p.Covers v ∧ CoversAll ps vs := by
  constructor
  · rintro ⟨hlength, hitems⟩
    refine ⟨hitems 0 p v rfl rfl, by simpa using hlength, fun i => ?_⟩
    simpa using hitems (i + 1)
  · rintro ⟨hfirst, hlength, hitems⟩
    refine ⟨by simpa using hlength, fun i p' v' hp hv => ?_⟩
    cases i with
    | zero =>
      cases hp
      cases hv
      exact hfirst
    | succ i => exact hitems i p' v' hp hv

/-- The captures of items of a pattern, the first of which has position `i`. -/
def capturedFrom (v : Node) (i : Nat) (ps : List Node) : Captures :=
  (namesFrom i ps).filterMap fun found => (v.part? found.2).map (found.1, ·)

theorem capturedFrom_cons {t : Stamp} {items : List Node} {i : Nat} {p v : Node} {ps : List Node}
    (h : items[i]? = some v) :
    capturedFrom (.list t items) i (p :: ps) =
      p.captured v ++ capturedFrom (.list t items) (i + 1) ps := by
  have hinner : (fun found : String × List Nat =>
      (part? (.list t items) (i :: found.2)).map (found.1, ·)) =
        fun found => (v.part? found.2).map (found.1, ·) := by
    funext found
    rw [part?_cons, h]
    rfl
  rw [capturedFrom, namesFrom, List.filterMap_append, List.filterMap_map]
  exact congrArg (List.filterMap · p.names ++ _) hinner

theorem matches?_leaf {p v : Node} {cs : Captures} (hparts : ∀ i place, p.part? (i :: place) = none)
    (hmatches : p.matches? v = if p.fits v then some (p.captured v) else none) :
    p.matches? v = some cs ↔ p.Covers v ∧ cs = p.captured v := by
  rw [covers_iff_fits hparts, hmatches]
  by_cases h : p.fits v = true
  · simp [h, eq_comm]
  · simp [h]

mutual

/-- **Matching item by item is matching by places**: it succeeds on the values that have what
fits at every place of the pattern, and captures what they have at the places of its names. -/
theorem matches?_eq_some_iff (p v : Node) {cs : Captures} :
    p.matches? v = some cs ↔ p.Covers v ∧ cs = p.captured v := by
  cases p with
  | list s ps =>
    cases v with
    | list t vs =>
      rw [covers_list]
      exact allMatch?_eq_some_iff ps (List.drop_zero (l := vs))
    | _ =>
      constructor
      · intro h
        cases h
      · rintro ⟨hcovers, -⟩
        obtain ⟨v', hv, hfits⟩ := hcovers [] _ rfl
        cases hv
        cases hfits
  | identifier s name =>
    refine matches?_leaf (fun _ _ => rfl) ?_
    unfold matches?
    by_cases h : name = "_"
    · simp [fits, captured, names, h]
    · simp [fits, captured, names, h]
  | _ => exact matches?_leaf (fun _ _ => rfl) rfl

theorem allMatch?_eq_some_iff (ps : List Node) {t : Stamp} {items vs : List Node} {i : Nat}
    {cs : Captures} (h : items.drop i = vs) :
    allMatch? ps vs = some cs ↔ CoversAll ps vs ∧ cs = capturedFrom (.list t items) i ps := by
  cases ps with
  | nil =>
    cases vs with
    | nil => simp [allMatch?, CoversAll, capturedFrom, namesFrom, eq_comm]
    | cons v vs => simp [allMatch?, CoversAll]
  | cons p ps =>
    cases vs with
    | nil => simp [allMatch?, CoversAll]
    | cons v vs =>
      have hi : items[i]? = some v := by
        rw [← List.head?_drop, h]
        rfl
      have hrest : items.drop (i + 1) = vs := by
        rw [← List.tail_drop, h]
        rfl
      rw [coversAll_cons, capturedFrom_cons hi]
      constructor
      · intro hmatch
        obtain ⟨first, hfirst, hmatch⟩ := Option.bind_eq_some_iff.1 hmatch
        obtain ⟨others, hothers, hmatch⟩ := Option.bind_eq_some_iff.1 hmatch
        cases hmatch
        obtain ⟨hp, rfl⟩ := (matches?_eq_some_iff p v).1 hfirst
        obtain ⟨hps, rfl⟩ := (allMatch?_eq_some_iff (t := t) ps hrest).1 hothers
        exact ⟨⟨hp, hps⟩, rfl⟩
      · rintro ⟨⟨hp, hps⟩, rfl⟩
        have hfirst := (matches?_eq_some_iff p v).2 ⟨hp, rfl⟩
        have hothers := (allMatch?_eq_some_iff (t := t) ps hrest).2 ⟨hps, rfl⟩
        simp [allMatch?, hfirst, hothers]

end

/-- Whether a value has what fits can be found out by matching. -/
instance (p v : Node) : Decidable (p.Covers v) :=
  decidable_of_iff ((p.matches? v).isSome = true) <| by
    simp [Option.isSome_iff_exists, matches?_eq_some_iff]

end Node

/-! ## Relations -/

namespace Relation

/-- The operator that a relation is written with. -/
def name : Relation → String
  | member => "in"
  | less => "<"
  | greater => ">"
  | equal => "="
  | notEqual => "!="

@[simp] theorem ofName?_name (r : Relation) : ofName? r.name = some r := by
  cases r with
  | _ => rfl

/-- The constants that a relation is asked about: lists for membership, anything for the rest. -/
def takes : Relation → Node → Bool
  | member, operand => operand.isData
  | _, operand => operand.isLiteral

theorem isLiteral_of_takes {r : Relation} {operand : Node} (h : r.takes operand = true) :
    operand.isLiteral = true := by
  cases r with
  | member =>
    cases operand with
    | list => exact h
    | _ => cases h
  | _ => exact h

/-- What a relation says of a scrutinee and an operand. Order is that of signed words and holds
between numbers only. -/
def Relates : Relation → Node → Node → Prop
  | member, v, operand => ∃ s items, operand = .list s items ∧ ∃ n ∈ items, n.same v = true
  | less, v, operand =>
    ∃ s t a b, v = .number s a ∧ operand = .number t b ∧ a.truncate < b.truncate
  | greater, v, operand =>
    ∃ s t a b, v = .number s a ∧ operand = .number t b ∧ b.truncate < a.truncate
  | equal, v, operand => operand.same v = true
  | notEqual, v, operand => operand.same v = false

theorem order?_eq_some_iff {v operand : Node} {o : Ordering} :
    order? v operand = some o ↔ ∃ s t a b, v = .number s a ∧ operand = .number t b ∧
      compare a.truncate.toInt b.truncate.toInt = o := by
  constructor
  · intro h
    unfold order? at h
    split at h
    · next s a t b => exact ⟨s, t, a, b, rfl, rfl, Option.some.inj h⟩
    · cases h
  · rintro ⟨s, t, a, b, rfl, rfl, rfl⟩
    rfl

/-- Of a constant that it takes, a relation can be asked without a fault. -/
theorem holds_of_takes {r : Relation} {operand : Node} (h : r.takes operand = true) (v : Node) :
    ∃ b, r.holds v operand = .ok b ∧ (b = true ↔ r.Relates v operand) := by
  cases r with
  | member =>
    cases operand with
    | list s items =>
      refine ⟨v.isIn items, rfl, ?_⟩
      rw [Node.isIn, List.any_eq_true]
      constructor
      · intro hitem
        exact ⟨s, items, rfl, hitem⟩
      · rintro ⟨s', items', hlist, hitem⟩
        cases hlist
        exact hitem
    | _ => cases h
  | less =>
    refine ⟨_, rfl, ?_⟩
    rw [beq_iff_eq, order?_eq_some_iff]
    simp only [Relates, Int.compare_eq_lt, Int64.lt_iff_toInt_lt]
  | greater =>
    refine ⟨_, rfl, ?_⟩
    rw [beq_iff_eq, order?_eq_some_iff]
    simp only [Relates, Int.compare_eq_gt, Int64.lt_iff_toInt_lt]
  | equal => exact ⟨_, rfl, Iff.rfl⟩
  | notEqual => exact ⟨_, rfl, iff_of_eq (Bool.not_eq_true' _)⟩

end Relation

/-! ## Patterns -/

/-- The patterns of `match` with constant operands. -/
inductive Pattern where
  /-- `_` -/
  | wildcard
  /-- A number, a string or a boolean. -/
  | constant (n : Node)
  /-- A quoted list. -/
  | quoted (n : Node)
  /-- A relation to an operand, with or without a name for the scrutinee: `[< 3]`, `[< x 3]`. -/
  | relation (r : Relation) (capture? : Option String) (operand : Node)
  /-- `[cons head tail]` -/
  | cons (head tail : String)

namespace Pattern

/-- The node is a way to write the pattern; what is in the stamps does not matter, but for the
quotes. -/
inductive Spells : Pattern → Node → Prop where
  | wildcard {s : Stamp} : Spells .wildcard (.identifier s "_")
  | constant {n : Node} (hn : n.isLiteral = true) (hdata : n.isData = false) :
    Spells (.constant n) n
  | quoted {n : Node} (hdata : n.isData = true) : Spells (.quoted n) n
  | relation {s t : Stamp} {r : Relation} {operand : Node} (hs : s.quoted = false)
    (hoperand : r.takes operand = true) :
    Spells (.relation r none operand) (.list s [.operator t r.name, operand])
  | capturing {s t u : Stamp} {r : Relation} {name : String} {operand : Node}
    (hs : s.quoted = false) (hoperand : r.takes operand = true) :
    Spells (.relation r (some name) operand)
      (.list s [.operator t r.name, .identifier u name, operand])
  | cons {s t u w : Stamp} {head tail : String} (hs : s.quoted = false) :
    Spells (.cons head tail)
      (.list s [.operator t "cons", .identifier u head, .identifier w tail])

/-- What a pattern asks of a value. -/
def Holds : Pattern → Node → Prop
  | .wildcard, _ => True
  | .constant n, v => n.same v = true
  | .quoted n, v => n.Covers v
  | .relation r _ operand, v => r.Relates v operand
  | .cons .., v => ∃ s first rest, v = .list s (first :: rest)

/-- What a pattern binds if it holds, in order. -/
def captures : Pattern → Node → Captures
  | .wildcard, v => [("_", v)]
  | .quoted n, v => n.captured v
  | .relation _ (some name) _, v => [(name, v)]
  | .cons head tail, .list _ (first :: rest) => [(head, first), (tail, .data rest)]
  | _, _ => []

/-- Taking a list apart is a demand: what is no list with items is refused. -/
def demands : Pattern → Bool
  | .cons .. => true
  | _ => false

/-- The value goes by the pattern, to the next one. -/
def Passes (p : Pattern) (v : Node) : Prop :=
  ¬ p.Holds v ∧ p.demands = false

/-- Why a value cannot be taken apart. -/
def refusal : Node → Fault
  | .list .. => .mistyped "a list to destructure" "empty list"
  | v => .wrongKind "a list to destructure" v

end Pattern

end ExprShell
