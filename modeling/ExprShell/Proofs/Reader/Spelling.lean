/-
Quoted data and the tokens that spell it. `Spells` is a grammar: a word stands for a leaf
(`Token.Denotes`), and a pair of delimiters of one kind for the list of what is between them. The
reader of data finds what the tokens spell (`Reader.items_of_spells`), as long as it is not nested
too deep, and nothing else (`Reader.spells_of_items`).
-/
import ExprShell.Proofs.Reader.ReadBack
import ExprShell.Proofs.Reader.Rules

namespace ExprShell

/-! ## Words -/

/-- The word stands for a leaf of quoted data. -/
inductive Token.Denotes (depth : Nat) (t : Token) : Node → Prop where
  | number {n : Number} : t.isNumber = true → n.value = Number.literalValue t.text →
    n.isNormal = true → Denotes depth t (.number { depth := depth, quoted := true } n)
  | string {text : String} : t.text = "\"" ++ text ++ "\"" →
    Denotes depth t (.string { depth := depth, quoted := true } text)
  | boolean {b : Bool} : t.text = (if b then "true" else "false") →
    Denotes depth t (.boolean { depth := depth, quoted := true } b)
  | escape {name : String} : name ≠ "" → t.text = "@" ++ name →
    Denotes depth t (.identifier { depth := depth, quoted := true } name)
  | name : t.isName = true →
    Denotes depth t (.identifier { depth := depth, quoted := true } t.text)

theorem Token.Denotes.nesting_eq {depth : Nat} {t : Token} {n : Node} (h : t.Denotes depth n) :
    n.nesting = 0 := by
  cases h with
  | _ => rfl

namespace Reader

variable {c : Context} {depth : Nat} {t : Token} {m n : Node}

theorem exists_of_isString (h : t.isString = true) : ∃ text, t.text = "\"" ++ text ++ "\"" := by
  obtain ⟨cs, hcs⟩ := Token.toList_of_isString h
  refine ⟨String.ofList cs, ?_⟩
  rw [← String.toList_inj]
  simp [hcs]

theorem exists_of_isEscape (h : t.isEscape = true) :
    ∃ name, name ≠ "" ∧ t.text = "@" ++ name ∧ String.ofList (t.text.toList.drop 1) = name := by
  unfold Token.isEscape at h
  split at h
  · next d rest htext =>
    refine ⟨String.ofList (d :: rest), ?_, ?_, ?_⟩
    · simp [← String.toList_inj]
    · simp [← String.toList_inj, htext]
    · simp [htext]
  · cases h

/-- What is read of a word is what it stands for. -/
theorem denotes_of_atom (hshape : t.shape = .word) (h : atom depth t = .ok n) :
    t.Denotes depth n.quote := by
  obtain ⟨x, hnumber, hx, rfl⟩ | ⟨hstring, rfl⟩ | ⟨b, hboolean, rfl⟩ | ⟨hescape, rfl⟩ |
    ⟨hname, rfl⟩ := atom_cases hshape h
  · obtain ⟨hvalue, hnormal⟩ := Number.ofLiteral?_eq_some_iff.1 hx
    exact .number hnumber hvalue hnormal
  · obtain ⟨text, htext⟩ := exists_of_isString hstring
    have hunquoted : unquoted t.text = text := by simp [unquoted, htext]
    rw [hunquoted]
    exact .string htext
  · exact .boolean hboolean
  · obtain ⟨name, hname, htext, hdrop⟩ := exists_of_isEscape hescape
    rw [hdrop]
    exact .escape hname htext
  · exact .name hname

theorem shape_of_isNumber (h : t.isNumber = true) : t.shape = .word := by
  unfold Token.shape
  split
  case h_10 => rfl
  all_goals
    next heq =>
      rw [Token.isNumber, heq] at h
      exact absurd h (by decide)

theorem shape_of_escape {name : String} (ht : t.text = "@" ++ name) : t.shape = .word := by
  unfold Token.shape
  split
  case h_10 => rfl
  all_goals
    next heq =>
      rw [ht, ← String.toList_inj] at heq
      simp at heq

theorem atom_escape {name : String} (hname : name ≠ "") (ht : t.text = "@" ++ name) :
    atom depth t = .ok (.identifier { depth := depth, quoted := true } name) := by
  have htext : t.text.toList = '@' :: name.toList := by simp [ht]
  have hescape : t.isEscape = true := by
    unfold Token.isEscape
    rw [htext]
    cases hlist : name.toList with
    | nil => exact absurd (String.toList_inj.1 hlist) hname
    | cons d rest => rfl
  have hnumber : t.isNumber = false := by
    simp [Token.isNumber, Number.isLiteral, htext]
  have hstring : t.isString = false := by
    simp [Token.isString, htext]
  have htrue : t.text ≠ "true" := by
    simp [← String.toList_inj, htext]
  have hfalse : t.text ≠ "false" := by
    simp [← String.toList_inj, htext]
  simp [atom, hnumber, hstring, htrue, hfalse, hescape, htext]

theorem atom_of_literal {x : Number} (hnumber : t.isNumber = true)
    (hx : Number.ofLiteral? t.text = some x) :
    atom depth t = .ok (.number { depth := depth } x) := by
  simp [atom, hnumber, hx]

theorem atom_of_isName (h : t.isName = true) : atom depth t = .ok (nameAt depth t.text) := by
  simp only [Token.isName, Bool.and_eq_true, Bool.not_eq_true', bne_iff_ne] at h
  obtain ⟨⟨⟨⟨⟨-, hstring⟩, hnumber⟩, hescape⟩, htrue⟩, hfalse⟩ := h
  simp [atom, hnumber, hstring, hescape, htrue, hfalse]

/-- A word that stands for something is read as that. -/
theorem atom_of_denotes (h : t.Denotes depth m) :
    t.shape = .word ∧ ∃ n, atom depth t = .ok n ∧ n.quote = m := by
  cases h with
  | number hnumber hvalue hnormal =>
    have hliteral := Number.ofLiteral?_eq_some_iff.2 ⟨hvalue, hnormal⟩
    exact ⟨shape_of_isNumber hnumber, _, atom_of_literal hnumber hliteral, rfl⟩
  | @string text htext =>
    refine ⟨?_, _, atom_string htext, rfl⟩
    have hlast : t.text.toList.getLast? = some '"' := by
      have hlist : t.text.toList = '"' :: text.toList ++ ['"'] := by simp [htext]
      rw [hlist, List.getLast?_concat]
    exact Token.shape_eq_word hlast (by decide)
  | boolean htext =>
    exact ⟨Token.shape_of_isWord (htext ▸ IsWord.boolean _), _, atom_boolean htext, rfl⟩
  | escape hname htext => exact ⟨shape_of_escape htext, _, atom_escape hname htext, rfl⟩
  | name hname => exact ⟨Token.shape_of_isName hname, _, atom_of_isName hname, rfl⟩

end Reader

/-! ## Lists -/

/-- The tokens spell a sequence of quoted data at a depth, one node for each word and each pair of
delimiters, in their order. -/
inductive Spells : Nat → List Token → List Node → Prop where
  | nil {depth : Nat} : Spells depth [] []
  | word {depth : Nat} {t : Token} {ts : List Token} {n : Node} {ns : List Node} :
    t.Denotes depth n → Spells depth ts ns → Spells depth (t :: ts) (n :: ns)
  | list {depth : Nat} {o : Opener} {opening closing : Token} {inner ts : List Token}
    {items ns : List Node} : o ≠ .brace → opening.shape = .opener o →
    closing.shape = .closer o.closer → Spells (depth + 1) inner items → Spells depth ts ns →
    Spells depth (opening :: inner ++ closing :: ts)
      (.list { depth := depth, quoted := true } items :: ns)

namespace Reader

variable {c : Context} {depth : Nat} {t opening closing : Token} {o : Opener} {first : Bool}
  {n : Node} {ns : List Node} {us ts rest : List Token}

/-- What the tokens spell is what is read of them, if the bound allows it. -/
theorem items_of_spells (h : Spells depth us ns)
    (hnesting : depth + Node.nestingAll ns ≤ c.maxDepth)
    (hclosing : closing.shape = .closer o.closer) :
    Runs c ((Goal.items o opening true first).plan depth) (us ++ closing :: rest)
      (.ok (ns, rest)) := by
  induction h generalizing o opening closing first rest with
  | nil => exact runs_items_closed hclosing
  | word hword _ ih =>
    obtain ⟨hshape, n, hatom, rfl⟩ := atom_of_denotes hword
    rw [Node.nestingAll] at hnesting
    refine runs_items_cons (fun k => by simp [hshape]) (runs_dataWord hshape hatom) ?_
    exact ih (by omega) hclosing
  | @list depth o' opening' closing' inner ts items ns ho hopening hclosing' _ _ ihitems ih =>
    rw [Node.nestingAll, Node.nesting] at hnesting
    have hitems : Runs c ((Goal.items o' opening' true true).plan (depth + 1))
        (inner ++ closing' :: (ts ++ closing :: rest)) (.ok (items, ts ++ closing :: rest)) :=
      ihitems (by omega) hclosing'
    rw [List.append_assoc]
    exact runs_items_cons (fun k => by simp [hopening])
      (runs_dataList ho hopening (by omega) hitems) (ih (by omega) hclosing)

/-- Neither a brace nor a separator starts data. -/
theorem dataElement_refused (hshape : t.shape = .opener .brace ∨ t.shape = .separator)
    (nodes : List Node) :
    ¬ Runs c (Goal.dataElement.plan depth) (t :: ts) (.ok (nodes, rest)) := by
  intro h
  have h := h.of_peek
  obtain hshape | hshape := hshape
  · rw [hshape] at h
    cases h
  · rw [hshape] at h
    cases h

/-- What is read of data is what its tokens spell. -/
theorem spells_of_items (hdepth : depth ≤ c.maxDepth)
    (h : Runs c ((Goal.items o opening true first).plan depth) ts (.ok (ns, rest))) :
    ∃ us closing, ts = us ++ closing :: rest ∧ closing.shape = .closer o.closer ∧
      Spells depth us ns ∧ depth + Node.nestingAll ns ≤ c.maxDepth := by
  induction hlength : ts.length using Nat.strongRecOn
    generalizing depth o opening first ts ns rest with
  | ind length ih =>
    subst hlength
    cases ts with
    | nil =>
      cases h with
      | peekEnd h => cases h
    | cons t ts =>
      cases hshape : t.shape with
      | closer k =>
        have hitems := h.of_peek
        rw [hshape] at hitems
        dsimp only at hitems
        split at hitems
        · next hk =>
          subst hk
          cases hitems.of_shift
          exact ⟨[], t, rfl, hshape, .nil, hdepth⟩
        · cases hitems
      | word =>
        obtain ⟨m, others, middle, hm, hothers, rfl⟩ := items_cons_inv (fun k => by simp [hshape]) h
        obtain ⟨rfl, n, hatom, rfl⟩ := dataElement_word_inv hshape hm
        obtain ⟨us, closing, rfl, hclosing, hspells, hnesting⟩ :=
          ih _ (by simp) hdepth hothers rfl
        have hword := denotes_of_atom hshape hatom
        refine ⟨t :: us, closing, rfl, hclosing, .word hword hspells, ?_⟩
        rw [Node.nestingAll, hword.nesting_eq]
        omega
      | separator =>
        obtain ⟨m, _, _, hm, _⟩ := items_cons_inv (fun k => by simp [hshape]) h
        exact absurd hm (dataElement_refused (.inr hshape) _)
      | opener o' =>
        obtain ⟨m, others, middle, hm, hothers, rfl⟩ := items_cons_inv (fun k => by simp [hshape]) h
        by_cases ho : o' = .brace
        · subst ho
          exact absurd hm (dataElement_refused (.inl hshape) _)
        · obtain ⟨hdeeper, ms, hms, rfl⟩ := dataElement_list_inv ho hshape hm
          obtain ⟨inner, closing', rfl, hclosing', hinner, hnesting'⟩ :=
            ih _ (by simp) hdeeper hms rfl
          obtain ⟨us, closing, rfl, hclosing, hspells, hnesting⟩ :=
            ih _ (by simp; omega) hdepth hothers rfl
          refine ⟨t :: inner ++ closing' :: us, closing, by simp, hclosing,
            .list ho hshape hclosing' hinner hspells, ?_⟩
          rw [Node.nestingAll, Node.nesting]
          omega

end Reader

/-- Tokens spell one sequence of data at most. -/
theorem Spells.unique {depth : Nat} {ts : List Token} {ms ns : List Node} (hm : Spells depth ts ms)
    (hn : Spells depth ts ns) : ms = ns := by
  let c : Reader.Context := ⟨depth + max (Node.nestingAll ms) (Node.nestingAll ns), 0⟩
  let closing : Token := ⟨")", 0⟩
  have hclosing : closing.shape = .closer Opener.paren.closer := rfl
  have hms : Reader.Runs c ((Reader.Goal.items .paren closing true true).plan depth)
      (ts ++ closing :: []) (.ok (ms, [])) :=
    Reader.items_of_spells hm (Nat.add_le_add_left (Nat.le_max_left _ _) _) hclosing
  have hns : Reader.Runs c ((Reader.Goal.items .paren closing true true).plan depth)
      (ts ++ closing :: []) (.ok (ns, [])) :=
    Reader.items_of_spells hn (Nat.add_le_add_left (Nat.le_max_right _ _) _) hclosing
  cases hms.unique hns
  rfl

end ExprShell
