/-
Nesting of delimiters, as a grammar and as a scan with a stack of open openers; the two agree
(`Token.nested_iff`).
-/
import ExprShell.Token.Basic

namespace ExprShell.Token

/-- The token neither opens nor closes anything. -/
def IsNeutral (t : Token) : Prop :=
  t.shape = .word ∨ t.shape = .separator

/-- The token closes what another one opens. -/
def Closes (t opening : Token) : Prop :=
  ∃ o, opening.shape = .opener o ∧ t.shape = .closer o.closer

/-- Sequences in which every opener has a closer of its own kind, with a nested sequence between
them. -/
inductive Nested : List Token → Prop where
  | nil : Nested []
  | neutral {t : Token} {ts : List Token} : t.IsNeutral → Nested ts → Nested (t :: ts)
  | group {opening closing : Token} {inner ts : List Token} :
    closing.Closes opening → Nested inner → Nested ts →
      Nested (opening :: inner ++ closing :: ts)

/-- The open openers after a token, the innermost first; `none` where a closer does not close
the innermost. -/
def nest (t : Token) (stack : List Token) : Option (List Token) :=
  match t.shape with
  | .opener _ => some (t :: stack)
  | .closer k =>
    match stack with
    | top :: below => if top.closer? = some k then some below else none
    | [] => none
  | .separator | .word => some stack

/-- The open openers after a sequence of tokens. -/
def nestAll : List Token → List Token → Option (List Token)
  | [], stack => some stack
  | t :: ts, stack => (t.nest stack).bind (nestAll ts)

variable {t : Token} {ts stack : List Token}

theorem nestAll_neutral (h : t.IsNeutral) : nestAll (t :: ts) stack = nestAll ts stack := by
  rcases h with h | h <;> simp [nestAll, nest, h]

theorem nestAll_opener {o : Opener} (h : t.shape = .opener o) :
    nestAll (t :: ts) stack = nestAll ts (t :: stack) := by
  simp [nestAll, nest, h]

theorem nestAll_closer {opening : Token} (h : t.Closes opening) :
    nestAll (t :: ts) (opening :: stack) = nestAll ts stack := by
  obtain ⟨o, hopening, hclosing⟩ := h
  simp [nestAll, nest, hclosing, closer?, hopening]

theorem nestAll_append {us : List Token} :
    nestAll (ts ++ us) stack = (nestAll ts stack).bind (nestAll us) := by
  induction ts generalizing stack with
  | nil => rfl
  | cons t ts ih =>
    simp only [List.cons_append, nestAll]
    cases t.nest stack with
    | none => rfl
    | some stack => exact ih

/-- Scanning a nested sequence leaves the stack as it was. -/
theorem Nested.nestAll_eq (h : Nested ts) : nestAll ts stack = some stack := by
  induction h generalizing stack with
  | nil => rfl
  | neutral ht _ ih => rw [nestAll_neutral ht, ih]
  | group hcloses _ _ ihinner ih =>
    obtain ⟨o, hopening, hclosing⟩ := id hcloses
    rw [List.cons_append, nestAll_opener hopening, nestAll_append, ihinner, Option.bind_some,
      nestAll_closer hcloses, ih]

/-- What is open before stays open under what a scan does. -/
theorem nestAll_below {below left : List Token} (h : nestAll ts stack = some left) :
    nestAll ts (stack ++ below) = some (left ++ below) := by
  induction ts generalizing stack with
  | nil =>
    cases h
    rfl
  | cons t ts ih =>
    rw [nestAll, Option.bind_eq_some_iff] at h
    obtain ⟨next, hnext, hleft⟩ := h
    have hnest : t.nest (stack ++ below) = some (next ++ below) := by
      unfold nest at hnext ⊢
      split at hnext
      · cases hnext
        rfl
      · split at hnext
        · split at hnext
          · next htop =>
            cases hnext
            exact if_pos htop
          · cases hnext
        · cases hnext
      · cases hnext
        rfl
      · cases hnext
        rfl
    rw [nestAll, hnest]
    exact ih hleft

/-- What an opener opens is not closed inside of it. -/
theorem Nested.not_nested_take (h : Nested ts) {opening : Token} {o : Opener}
    (hopening : opening.shape = .opener o) (j : Nat) : ¬ Nested (opening :: ts.take j) := by
  intro hclosed
  have hscan : nestAll ts [] = some [] := h.nestAll_eq
  rw [← List.take_append_drop j ts, nestAll_append, Option.bind_eq_some_iff] at hscan
  obtain ⟨left, hleft, -⟩ := hscan
  have hopen : nestAll (opening :: ts.take j) [] = some (left ++ [opening]) := by
    rw [nestAll_opener hopening]
    exact nestAll_below hleft
  rw [hclosed.nestAll_eq] at hopen
  simp at hopen

/-- A sequence that closes all of a stack: nested sequences, and a closer for each opener. -/
def ClosesAll : List Token → List Token → Prop
  | [], ts => Nested ts
  | opening :: stack, ts =>
    ∃ inner closing rest, ts = inner ++ closing :: rest ∧ Nested inner ∧
      closing.Closes opening ∧ ClosesAll stack rest

theorem ClosesAll.neutral (ht : t.IsNeutral) (h : ClosesAll stack ts) :
    ClosesAll stack (t :: ts) := by
  cases stack with
  | nil => exact .neutral ht h
  | cons opening stack =>
    obtain ⟨inner, closing, rest, rfl, hinner, hcloses, hrest⟩ := h
    exact ⟨t :: inner, closing, rest, rfl, .neutral ht hinner, hcloses, hrest⟩

theorem ClosesAll.open (h : ClosesAll (t :: stack) ts) : ClosesAll stack (t :: ts) := by
  obtain ⟨inner, closing, rest, rfl, hinner, hcloses, hrest⟩ := h
  cases stack with
  | nil => exact .group hcloses hinner hrest
  | cons opening stack =>
    obtain ⟨inner', closing', rest, rfl, hinner', hcloses', hrest⟩ := hrest
    refine ⟨t :: inner ++ closing :: inner', closing', rest, ?_, ?_, hcloses', hrest⟩
    · simp
    · exact .group hcloses hinner hinner'

theorem closesAll_of_nestAll (h : nestAll ts stack = some []) : ClosesAll stack ts := by
  induction ts generalizing stack with
  | nil =>
    cases h
    exact .nil
  | cons t ts ih =>
    cases hshape : t.shape with
    | opener o =>
      rw [nestAll_opener hshape] at h
      exact (ih h).open
    | separator =>
      rw [nestAll_neutral (.inr hshape)] at h
      exact (ih h).neutral (.inr hshape)
    | word =>
      rw [nestAll_neutral (.inl hshape)] at h
      exact (ih h).neutral (.inl hshape)
    | closer k =>
      cases stack with
      | nil => simp [nestAll, nest, hshape] at h
      | cons top below =>
        by_cases htop : top.closer? = some k
        · have hcloses : t.Closes top := by
            unfold closer? at htop
            split at htop
            · next o ho =>
              cases htop
              exact ⟨o, ho, hshape⟩
            · cases htop
          rw [nestAll_closer hcloses] at h
          exact ⟨[], t, ts, rfl, .nil, hcloses, ih h⟩
        · simp [nestAll, nest, hshape, htop] at h

/-- The scan finds out whether a sequence is nested. -/
theorem nested_iff : Nested ts ↔ nestAll ts [] = some [] :=
  ⟨fun h => h.nestAll_eq, fun h => closesAll_of_nestAll h⟩

/-! ## Parts of nested sequences -/

theorem Nested.append {us : List Token} (h : Nested ts) (hus : Nested us) : Nested (ts ++ us) := by
  rw [nested_iff, nestAll_append, h.nestAll_eq]
  exact hus.nestAll_eq

/-- No closer follows a nested sequence in another one. -/
theorem Nested.not_closer {after : List Token} (h : Nested ts) {k : Closer}
    (ht : t.shape = .closer k) : ¬ Nested (ts ++ t :: after) := by
  intro hall
  have hscan : nestAll (ts ++ t :: after) [] = some [] := hall.nestAll_eq
  rw [nestAll_append, h.nestAll_eq] at hscan
  simp [nestAll, nest, ht] at hscan

/-- Where a nested sequence is followed by a closer, it ends at the first place where it can. -/
theorem Nested.eq_of_append {us after after' : List Token} {closing closing' : Token}
    {k k' : Closer} (h : Nested ts) (hus : Nested us) (hclosing : closing.shape = .closer k)
    (hclosing' : closing'.shape = .closer k')
    (heq : ts ++ closing :: after = us ++ closing' :: after') :
    ts = us ∧ closing = closing' ∧ after = after' := by
  rcases List.append_eq_append_iff.1 heq with ⟨more, rfl, hmore⟩ | ⟨more, rfl, hmore⟩
  · cases more with
    | nil =>
      cases hmore
      exact ⟨(List.append_nil _).symm, rfl, rfl⟩
    | cons t more =>
      cases hmore
      exact absurd hus (h.not_closer hclosing)
  · cases more with
    | nil =>
      cases hmore
      exact ⟨List.append_nil _, rfl, rfl⟩
    | cons t more =>
      cases hmore
      exact absurd h (hus.not_closer hclosing')

/-! ## Depth -/

/-- The most openers that are open at once, where so many are open before the sequence. -/
def deepest (level : Nat) : List Token → Nat
  | [] => level
  | t :: ts =>
    match t.shape with
    | .opener _ => deepest (level + 1) ts
    | .closer _ => max level (deepest (level - 1) ts)
    | .separator | .word => deepest level ts

theorem le_deepest (level : Nat) (ts : List Token) : level ≤ deepest level ts := by
  induction ts generalizing level with
  | nil => exact Nat.le_refl _
  | cons t ts ih =>
    unfold deepest
    split
    · exact Nat.le_of_succ_le (ih (level + 1))
    · exact Nat.le_max_left _ _
    · exact ih level
    · exact ih level

end ExprShell.Token
