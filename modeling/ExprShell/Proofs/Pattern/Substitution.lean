/-
Matching undoes substitution (`Node.matches?_inverts_fill`). To substitute in a pattern is to put
some value in the place of each name in it, of the wildcard as well, each place for itself
(`Node.fill`). The values that a pattern covers are those that come of it that way
(`Node.covers_iff_exists_fill`).

What a match captures is a table with an entry for each name. The names of a pattern are listed in
the order of their places (`Node.names_increasing`), so the entry that stays is that of the last
place.
-/
import ExprShell.Environment.Table
import ExprShell.Proofs.Pattern.Meaning

namespace ExprShell

/-! ## Tables -/

namespace Table

variable {α : Type} {t : Table α} {entries : List (String × α)} {name : String}

theorem get?_insertAll :
    (t.insertAll entries).get? name = (List.lookup name entries.reverse).or (t.get? name) := by
  induction entries generalizing t with
  | nil => rfl
  | cons entry rest ih =>
    have hlast : List.lookup name (entry :: rest).reverse =
        (List.lookup name rest.reverse).or (get? [entry] name) := by
      rw [List.reverse_cons, List.lookup_append]
      rfl
    change ((t.insert entry.1 entry.2).insertAll rest).get? name = _
    rw [ih, hlast, get?_insert, get?_cons, Option.or_assoc]
    by_cases h : name = entry.1
    · simp [h]
    · simp [h]

/-- The value of a name is the one set last. -/
theorem get?_insertAll_nil_iff {value : α} :
    (insertAll [] entries).get? name = some value ↔
      ∃ before after, entries = before ++ (name, value) :: after ∧
        ∀ entry ∈ after, entry.1 ≠ name := by
  rw [get?_insertAll, get?_nil, Option.or_none, List.lookup_eq_some_iff]
  constructor
  · rintro ⟨after, before, hentries, hafter⟩
    refine ⟨before.reverse, after.reverse, ?_, fun entry hentry => ?_⟩
    · rw [← List.reverse_reverse entries, hentries]
      simp
    · have hne := hafter entry (List.mem_reverse.1 hentry)
      simp only [bne_iff_ne] at hne
      exact hne.symm
  · rintro ⟨before, after, rfl, hafter⟩
    refine ⟨after.reverse, before.reverse, by simp, fun entry hentry => ?_⟩
    simpa using (hafter entry (List.mem_reverse.1 hentry)).symm

/-- The names of a table are those that were set. -/
theorem exists_get?_insertAll_nil_iff :
    (∃ value, (insertAll [] entries).get? name = some value) ↔
      ∃ value, (name, value) ∈ entries := by
  constructor
  · rintro ⟨value, h⟩
    obtain ⟨before, after, rfl, -⟩ := get?_insertAll_nil_iff.1 h
    exact ⟨value, by simp⟩
  · rintro ⟨value, h⟩
    rw [get?_insertAll, get?_nil, Option.or_none]
    cases hlookup : List.lookup name entries.reverse with
    | some found => exact ⟨found, rfl⟩
    | none =>
      have hne := List.lookup_eq_none_iff.1 hlookup (name, value) (List.mem_reverse.2 h)
      simp at hne

end Table

namespace Node

/-! ## Substitution -/

mutual

/-- The node with a value in the place of each name in it, at any depth of lists. -/
def fill (values : List Nat → Node) : Node → Node
  | .identifier .. => values []
  | .list s items => .list s (fillFrom values 0 items)
  | n => n

/-- The same of items of a list, the first of which has position `i`. -/
def fillFrom (values : List Nat → Node) (i : Nat) : List Node → List Node
  | [] => []
  | n :: rest => fill (fun place => values (i :: place)) n :: fillFrom values (i + 1) rest

end

mutual

theorem same_self (n : Node) : n.same n = true := by
  cases n with
  | string | boolean | operator | identifier | command | commandResult | error | defunc =>
    exact beq_self_eq_true _
  | number s n => exact beq_self_eq_true n.value
  | list s items => exact sameAll_self items
  | function s params body =>
    rw [same, beq_self_eq_true, sameAll_self body]
    rfl
  | rawAst s n => exact same_self n

theorem sameAll_self (ns : List Node) : sameAll ns ns = true := by
  cases ns with
  | nil => rfl
  | cons n rest =>
    rw [sameAll, same_self n, sameAll_self rest]
    rfl

end

mutual

/-- What comes of a pattern by substitution is covered by it. -/
theorem covers_of_fill (p : Node) {values : List Nat → Node} {v : Node}
    (h : (p.fill values).same v = true) : p.Covers v := by
  cases p with
  | identifier s name => exact (covers_iff_fits fun _ _ => rfl).2 rfl
  | list s ps =>
    cases v with
    | list t vs => exact covers_list.2 (coversAll_of_fill ps h)
    | _ => cases h
  | _ => exact (covers_iff_fits fun _ _ => rfl).2 h

theorem coversAll_of_fill (ps : List Node) {values : List Nat → Node} {i : Nat} {vs : List Node}
    (h : sameAll (fillFrom values i ps) vs = true) : CoversAll ps vs := by
  cases ps with
  | nil =>
    cases vs with
    | nil => exact ⟨rfl, fun i p v hp => by cases hp⟩
    | cons v vs => cases h
  | cons p ps =>
    cases vs with
    | nil => cases h
    | cons v vs =>
      obtain ⟨hfirst, hrest⟩ := Bool.and_eq_true_iff.1 h
      exact coversAll_cons.2 ⟨covers_of_fill p hfirst, coversAll_of_fill ps hrest⟩

end

mutual

/-- A covered value comes of the pattern if each name is replaced by what stands in its place. -/
theorem fill_of_covers (p : Node) {values : List Nat → Node} {v : Node}
    (hvalues : ∀ place x, v.part? place = some x → values place = x) (h : p.Covers v) :
    (p.fill values).same v = true := by
  cases p with
  | identifier s name =>
    rw [fill, hvalues [] v (part?_nil v)]
    exact same_self v
  | list s ps =>
    obtain ⟨v', hv, hfits⟩ := h [] _ rfl
    rw [part?_nil] at hv
    cases hv
    cases v with
    | list t vs =>
      refine fillFrom_of_covers ps (fun j w hw place x hx => ?_) (covers_list.1 h)
      rw [Nat.zero_add]
      exact hvalues (j :: place) x (by rw [part?_cons, hw]; exact hx)
    | _ => cases hfits
  | _ => exact (covers_iff_fits fun _ _ => rfl).1 h

theorem fillFrom_of_covers (ps : List Node) {values : List Nat → Node} {i : Nat} {vs : List Node}
    (hvalues : ∀ (j : Nat) w, vs[j]? = some w →
      ∀ place x, w.part? place = some x → values ((i + j) :: place) = x)
    (h : CoversAll ps vs) : sameAll (fillFrom values i ps) vs = true := by
  cases ps with
  | nil =>
    cases vs with
    | nil => rfl
    | cons v vs => cases h.1
  | cons p ps =>
    cases vs with
    | nil => cases h.1
    | cons v vs =>
      obtain ⟨hp, hps⟩ := coversAll_cons.1 h
      have hfirst := fill_of_covers p (hvalues 0 v rfl) hp
      have hrest := fillFrom_of_covers ps (i := i + 1) (fun j w hw place x hx => by
        have hvalue := hvalues (j + 1) w hw place x hx
        rwa [← Nat.add_assoc, Nat.add_right_comm] at hvalue) hps
      rw [fillFrom, sameAll, Bool.and_eq_true]
      exact ⟨hfirst, hrest⟩

end

/-- The values that a pattern covers are those that come of it by substitution. -/
theorem covers_iff_exists_fill (p v : Node) :
    p.Covers v ↔ ∃ values, (p.fill values).same v = true := by
  constructor
  · intro h
    refine ⟨fun place => (v.part? place).getD v, fill_of_covers p (fun place x hx => ?_) h⟩
    rw [hx]
    rfl
  · rintro ⟨values, h⟩
    exact covers_of_fill p h

/-! ## Names and their places -/

/-- A name stands at a place of a node. -/
def StandsAt (n : Node) (name : String) (place : List Nat) : Prop :=
  ∃ s, n.part? place = some (.identifier s name)

/-- The last place of a name from left to right, which is the order of a dictionary. -/
def IsLastPlace (n : Node) (name : String) (place : List Nat) : Prop :=
  n.StandsAt name place ∧
    ∀ other, n.StandsAt name other → other = place ∨ List.Lex (· < ·) other place

mutual

theorem mem_names (p : Node) {name : String} {place : List Nat} :
    (name, place) ∈ p.names ↔ name ≠ "_" ∧ p.StandsAt name place := by
  cases p with
  | identifier s name' =>
    unfold names StandsAt
    cases place with
    | nil =>
      by_cases h : name' = "_"
      · simp only [h, if_true, List.not_mem_nil, false_iff, not_and]
        rintro hname ⟨t, ht⟩
        cases ht
        exact hname rfl
      · simp only [h, if_false, List.mem_singleton, Prod.mk.injEq, and_true, part?_nil]
        constructor
        · rintro rfl
          exact ⟨h, s, rfl⟩
        · rintro ⟨-, t, ht⟩
          cases ht
          rfl
    | cons i place =>
      by_cases h : name' = "_"
      · simp [h, part?]
      · simp [h, part?]
  | list s ps =>
    cases place with
    | nil =>
      constructor
      · intro h
        obtain ⟨-, j, place, p, hplace, -⟩ := (mem_namesFrom ps).1 h
        cases hplace
      · rintro ⟨-, t, ht⟩
        cases ht
    | cons i place =>
      rw [names, mem_namesFrom]
      unfold StandsAt
      simp only [part?_cons, Option.bind_eq_some_iff]
      constructor
      · rintro ⟨hname, j, place, p, hplace, hp, t, ht⟩
        rw [Nat.zero_add] at hplace
        cases hplace
        exact ⟨hname, t, p, hp, ht⟩
      · rintro ⟨hname, t, p, hp, ht⟩
        exact ⟨hname, i, place, p, by rw [Nat.zero_add], hp, t, ht⟩
  | _ =>
    unfold names StandsAt
    cases place with
    | nil => simp [part?]
    | cons i place => simp [part?]

theorem mem_namesFrom (ps : List Node) {i : Nat} {name : String} {place : List Nat} :
    (name, place) ∈ namesFrom i ps ↔ name ≠ "_" ∧ ∃ j place' p,
      place = (i + j) :: place' ∧ ps[j]? = some p ∧ p.StandsAt name place' := by
  cases ps with
  | nil => simp [namesFrom]
  | cons p ps =>
    rw [namesFrom, List.mem_append, List.mem_map, mem_namesFrom ps]
    constructor
    · rintro (⟨⟨name', place'⟩, hmem, heq⟩ | ⟨hname, j, place', p', rfl, hp', hstands⟩)
      · cases heq
        obtain ⟨hname, hstands⟩ := (mem_names p).1 hmem
        exact ⟨hname, 0, place', p, rfl, rfl, hstands⟩
      · refine ⟨hname, j + 1, place', p', ?_, hp', hstands⟩
        rw [Nat.add_assoc, Nat.add_comm 1 j]
    · rintro ⟨hname, j, place', p', rfl, hp', hstands⟩
      cases j with
      | zero =>
        cases hp'
        exact .inl ⟨(name, place'), (mem_names p).2 ⟨hname, hstands⟩, rfl⟩
      | succ j =>
        refine .inr ⟨hname, j, place', p', ?_, hp', hstands⟩
        rw [Nat.add_assoc, Nat.add_comm 1 j]

end

mutual

/-- Names are listed in the order of their places. -/
theorem names_increasing (p : Node) :
    p.names.Pairwise fun a b => List.Lex (· < ·) a.2 b.2 := by
  cases p with
  | identifier s name =>
    unfold names
    split
    · exact .nil
    · exact List.pairwise_singleton _ _
  | list s ps => exact namesFrom_increasing ps 0
  | _ => exact .nil

theorem namesFrom_increasing (ps : List Node) (i : Nat) :
    (namesFrom i ps).Pairwise fun a b => List.Lex (· < ·) a.2 b.2 := by
  cases ps with
  | nil => exact .nil
  | cons p ps =>
    refine List.pairwise_append.2 ⟨?_, namesFrom_increasing ps (i + 1), ?_⟩
    · exact List.pairwise_map.2 ((names_increasing p).imp .cons)
    -- All places in one item are before those in the items after it.
    · intro a ha b hb
      obtain ⟨found, -, rfl⟩ := List.mem_map.1 ha
      obtain ⟨-, j, place, p', hplace, -⟩ := (mem_namesFrom ps).1 hb
      rw [hplace]
      exact .rel (by omega)

end

/-! ## Captures -/

variable {p v : Node} {name : String}

/-- In a covered value every place of a name has something to capture. -/
theorem exists_part?_of_covers (h : p.Covers v) {place : List Nat}
    (hstands : p.StandsAt name place) : ∃ x, v.part? place = some x := by
  obtain ⟨s, hs⟩ := hstands
  obtain ⟨x, hx, -⟩ := h place _ hs
  exact ⟨x, hx⟩

theorem exists_capture_iff (h : p.Covers v) :
    (∃ x, (name, x) ∈ p.captured v) ↔ name ≠ "_" ∧ ∃ place, p.StandsAt name place := by
  constructor
  · rintro ⟨x, hx⟩
    obtain ⟨⟨name', place⟩, hmem, hcapture⟩ := List.mem_filterMap.1 hx
    obtain ⟨y, -, heq⟩ := Option.map_eq_some_iff.1 hcapture
    cases heq
    obtain ⟨hname, hstands⟩ := (mem_names p).1 hmem
    exact ⟨hname, place, hstands⟩
  · rintro ⟨hname, place, hstands⟩
    obtain ⟨x, hx⟩ := exists_part?_of_covers h hstands
    refine ⟨x, List.mem_filterMap.2 ⟨(name, place), (mem_names p).2 ⟨hname, hstands⟩, ?_⟩⟩
    simp [hx]

/-- A capture with no later one of its name is that of the last place. -/
theorem isLastPlace_of_captured (h : p.Covers v) {x : Node} {before after : Captures}
    (hcaptured : p.captured v = before ++ (name, x) :: after)
    (hafter : ∀ entry ∈ after, entry.1 ≠ name) :
    ∃ place, p.IsLastPlace name place ∧ v.part? place = some x := by
  obtain ⟨earlier, rest, hnames, -, hrest⟩ := List.filterMap_eq_append_iff.1 hcaptured
  obtain ⟨skipped, ⟨name, place⟩, later, rfl, -, hfound, hlater⟩ :=
    List.filterMap_eq_cons_iff.1 hrest
  obtain ⟨y, hy, heq⟩ := Option.map_eq_some_iff.1 hfound
  cases heq
  rw [← List.append_assoc] at hnames
  have hordered := names_increasing p
  rw [hnames, List.pairwise_append] at hordered
  have hmem : (name, place) ∈ p.names := by simp [hnames]
  obtain ⟨hname, hstands⟩ := (mem_names p).1 hmem
  refine ⟨place, ⟨hstands, fun other hother => ?_⟩, hy⟩
  have hmem' := (mem_names p).2 ⟨hname, hother⟩
  rw [hnames, List.mem_append, List.mem_cons] at hmem'
  rcases hmem' with hearlier | heq | hlate
  · exact .inr (hordered.2.2 _ hearlier _ List.mem_cons_self)
  · exact .inl (congrArg Prod.snd heq)
  · obtain ⟨x', hx'⟩ := exists_part?_of_covers h hother
    have hentry : (name, x') ∈ after := by
      rw [← hlater]
      exact List.mem_filterMap.2 ⟨(name, other), hlate, by simp [hx']⟩
    exact absurd rfl (hafter _ hentry)

/-- **Matching undoes substitution.** A quoted pattern matches the lists that come of it by putting
some value in the place of each name, up to equality of nodes. The captures then have the names of
the pattern but for the wildcard, each with what the value has at the last place of that name. -/
theorem matches?_inverts_fill (s : Stamp) (ps : List Node) (v : Node) :
    (((Node.list s ps).matches? v).isSome = true ↔
      (∃ t vs, v = .list t vs) ∧ ∃ values, ((Node.list s ps).fill values).same v = true) ∧
    ∀ captures, (Node.list s ps).matches? v = some captures → ∀ name,
      ((∃ x, (Table.insertAll [] captures).get? name = some x) ↔
        name ≠ "_" ∧ ∃ place, (Node.list s ps).StandsAt name place) ∧
      ∀ x, (Table.insertAll [] captures).get? name = some x →
        ∃ place, (Node.list s ps).IsLastPlace name place ∧ v.part? place = some x := by
  constructor
  · rw [← covers_iff_exists_fill]
    constructor
    · intro h
      obtain ⟨captures, hmatches⟩ := Option.isSome_iff_exists.1 h
      obtain ⟨hcovers, -⟩ := (matches?_eq_some_iff _ v).1 hmatches
      refine ⟨?_, hcovers⟩
      cases v with
      | list t vs => exact ⟨t, vs, rfl⟩
      | _ => cases hmatches
    · rintro ⟨-, hcovers⟩
      rw [(matches?_eq_some_iff _ v).2 ⟨hcovers, rfl⟩]
      rfl
  · intro captures hmatches name
    obtain ⟨hcovers, rfl⟩ := (matches?_eq_some_iff _ v).1 hmatches
    refine ⟨?_, fun x hx => ?_⟩
    · rw [Table.exists_get?_insertAll_nil_iff, exists_capture_iff hcovers]
    · obtain ⟨before, after, hcaptured, hafter⟩ := Table.get?_insertAll_nil_iff.1 hx
      exact isLastPlace_of_captured hcovers hcaptured hafter

/-- A name that stands twice, the second time in a list, and a number that is held by an unsigned
word in the value. -/
theorem matches?_inverts_fill_repeated :
    let p := Node.data [.identifier {} "x", .identifier {} "_",
      .data [.identifier {} "x", .ofInt64 1], .identifier {} "y"]
    let v := Node.data [.ofInt64 5, .ofInt64 6, .data [.ofInt64 7, .ofNumber (.uint 1)],
      .ofString "a"]
    let captures : Captures := [("x", .ofInt64 5), ("x", .ofInt64 7), ("y", .ofString "a")]
    p.matches? v = some captures ∧ (∃ values, (p.fill values).same v = true) ∧
      (¬ ∃ x, (Table.insertAll [] captures).get? "_" = some x) ∧
      ∃ place, p.IsLastPlace "x" place ∧ v.part? place = some (.ofInt64 7) := by
  intro p v captures
  have hmatches : p.matches? v = some captures := rfl
  obtain ⟨hfill, hcaptures⟩ := matches?_inverts_fill { quoted := true } _ v
  refine ⟨hmatches, (hfill.1 (congrArg Option.isSome hmatches)).2, fun hwildcard => ?_, ?_⟩
  · exact ((hcaptures _ hmatches "_").1.1 hwildcard).1 rfl
  · exact (hcaptures _ hmatches "x").2 (.ofInt64 7) rfl

end Node

end ExprShell
