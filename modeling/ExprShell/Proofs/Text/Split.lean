/-
What a text splits into. Between the occurrences of a separator there are pieces: no piece holds
the separator (`not_infix_of_mem_piecesFrom`), with it between each two they are the text again
(`intercalate_piecesFrom`), and texts without a character are what is between its occurrences once
they are joined with it (`piecesFrom_intercalate`). Between blanks there are words, which are the
runs of the text (`exists_wordsFrom_eq_runs`): a `Run` is an occurrence of characters that are not
blank and cannot be made longer on either side.
-/
import ExprShell.Text.Blank
import ExprShell.Text.Split

namespace ExprShell.Text

/-! ## Pieces -/

section Pieces

variable {separator : List Char}

theorem piecesFrom_ne_nil (pending text : List Char) : piecesFrom separator pending text ≠ [] := by
  induction pending, text using piecesFrom.induct separator with
  | case1 pending => simp [piecesFrom]
  | case2 pending c rest h => simp [piecesFrom, h]
  | case3 pending c rest h ih =>
    rw [piecesFrom, if_neg h]
    exact ih

/-- Cutting goes on behind the separator. -/
theorem cons_eq_append_drop (hne : separator ≠ []) {c : Char} {rest : List Char}
    (h : separator <+: c :: rest) : c :: rest = separator ++ rest.drop (separator.length - 1) := by
  obtain ⟨tail, htail⟩ := h
  obtain ⟨d, others, rfl⟩ := List.exists_cons_of_ne_nil hne
  obtain ⟨rfl, rfl⟩ := List.cons.inj htail
  simp

theorem intercalate_piecesFrom (hne : separator ≠ []) (pending text : List Char) :
    separator.intercalate (piecesFrom separator pending text) = pending.reverse ++ text := by
  induction pending, text using piecesFrom.induct separator with
  | case1 pending => simp [piecesFrom]
  | case2 pending c rest h ih =>
    have hbehind := cons_eq_append_drop hne (List.isPrefixOf_iff_prefix.1 h)
    rw [piecesFrom, if_pos h, List.intercalate_cons_of_ne_nil (piecesFrom_ne_nil _ _), ih, hbehind]
    simp
  | case3 pending c rest h ih =>
    rw [piecesFrom, if_neg h, ih]
    simp

/-- An occurrence within the first part of a text is one in the text, and begins in that part. -/
theorem exists_lt_of_occurs (hne : separator ≠ []) {piece : List Char}
    (h : separator <:+: piece) (rest : List Char) :
    ∃ k < piece.length, separator <+: (piece ++ rest).drop k := by
  obtain ⟨before, after, rfl⟩ := h
  have hlength := List.length_pos_iff.2 hne
  refine ⟨before.length, ?_, after ++ rest, ?_⟩
  · simp only [List.length_append]
    omega
  · simp

/-- A piece is closed at the first separator that begins after its start, so if none begins within
`pending`, none begins within a piece. -/
theorem not_infix_of_mem_piecesFrom (hne : separator ≠ []) (pending text : List Char)
    (hclear : ∀ k < pending.length, ¬ separator <+: (pending.reverse ++ text).drop k) :
    ∀ piece ∈ piecesFrom separator pending text, ¬ separator <:+: piece := by
  have hpending : ¬ separator <:+: pending.reverse := by
    intro h
    obtain ⟨k, hk, hat⟩ := exists_lt_of_occurs hne h text
    exact hclear k (by simpa using hk) hat
  induction pending, text using piecesFrom.induct separator with
  | case1 pending =>
    rw [piecesFrom]
    exact List.forall_mem_singleton.2 hpending
  | case2 pending c rest h ih =>
    rw [piecesFrom, if_pos h]
    refine List.forall_mem_cons.2 ⟨hpending, ih (by simp) ?_⟩
    simpa using hne
  | case3 pending c rest h ih =>
    rw [piecesFrom, if_neg h]
    have hclear' : ∀ k < (c :: pending).length,
        ¬ separator <+: ((c :: pending).reverse ++ rest).drop k := by
      intro k hk
      rw [List.reverse_cons, List.append_assoc, List.singleton_append]
      rcases Nat.lt_or_eq_of_le (Nat.le_of_lt_succ hk) with hk | rfl
      · exact hclear k hk
      · rw [← List.length_reverse, List.drop_left, ← List.isPrefixOf_iff_prefix]
        exact h
    refine ih hclear' ?_
    intro h
    obtain ⟨k, hk, hat⟩ := exists_lt_of_occurs hne h rest
    exact hclear' k (by simpa using hk) hat

/-- What does not hold the separating character goes to the piece at hand. -/
theorem piecesFrom_append {c : Char} {piece : List Char} (h : c ∉ piece)
    (pending rest : List Char) :
    piecesFrom [c] pending (piece ++ rest) = piecesFrom [c] (piece.reverse ++ pending) rest := by
  induction piece generalizing pending with
  | nil => rfl
  | cons d piece ih =>
    simp only [List.mem_cons, not_or] at h
    rw [List.cons_append, piecesFrom, if_neg (by simpa using h.1), ih h.2]
    simp

theorem piecesFrom_intercalate {c : Char} {texts : List (List Char)} (hne : texts ≠ [])
    (h : ∀ text ∈ texts, c ∉ text) : piecesFrom [c] [] ([c].intercalate texts) = texts := by
  induction texts with
  | nil => exact absurd rfl hne
  | cons text texts ih =>
    obtain ⟨htext, htexts⟩ := List.forall_mem_cons.1 h
    by_cases hlast : texts = []
    · subst hlast
      rw [List.intercalate_singleton, ← List.append_nil text, piecesFrom_append htext, piecesFrom]
      simp
    · rw [List.intercalate_cons_of_ne_nil hlast, List.append_assoc, piecesFrom_append htext,
        List.singleton_append, piecesFrom, if_pos (by simp)]
      simp [ih hlast htexts]

end Pieces

/-! ## Runs -/

/-- A maximal run of characters of a text that are not blank. -/
structure Run (text : List Char) where
  before : List Char
  word : List Char
  after : List Char
  split : before ++ word ++ after = text
  word_ne_nil : word ≠ []
  solid : ∀ c ∈ word, isBlank c = false
  /-- It cannot begin earlier. -/
  blank_before : ∀ c ∈ before.getLast?, isBlank c = true
  /-- It cannot end later. -/
  blank_after : ∀ c ∈ after.head?, isBlank c = true

namespace Run

variable {text : List Char}

/-- The position at which the run begins. -/
def start (r : Run text) : Nat := r.before.length

/-- Runs that begin at the same position are the same. -/
theorem eq_of_start_eq {r r' : Run text} (h : r.start = r'.start) : r = r' := by
  obtain ⟨before, word, after, hsplit, hne, hsolid, hbefore, hafter⟩ := r
  obtain ⟨before', word', after', hsplit', hne', hsolid', hbefore', hafter'⟩ := r'
  subst hsplit
  simp only [List.append_assoc] at hsplit'
  obtain ⟨rfl, hrest⟩ := List.append_inj hsplit' h.symm
  -- The longer of the two words would go on with what comes after the shorter one.
  rcases List.append_eq_append_iff.1 hrest with ⟨more, rfl, rfl⟩ | ⟨more, rfl, rfl⟩
  · cases more with
    | nil => simp
    | cons c more =>
      have hsolid := hsolid c (by simp)
      have hblank := hafter' c (by simp)
      rw [hsolid] at hblank
      cases hblank
  · cases more with
    | nil => simp
    | cons c more =>
      have hsolid := hsolid' c (by simp)
      have hblank := hafter c (by simp)
      rw [hsolid] at hblank
      cases hblank

/-- No run begins inside another, where the character before it would not be blank. -/
theorem end_le_of_start_lt {r r' : Run text} (h : r.start < r'.start) :
    r.start + r.word.length ≤ r'.start := by
  have hsplit : r.before ++ (r.word ++ r.after) = r'.before ++ (r'.word ++ r'.after) := by
    rw [← List.append_assoc, r.split, ← List.append_assoc, r'.split]
  rcases List.append_eq_append_iff.1 hsplit with ⟨more, hbefore, hrest⟩ | ⟨more, hbefore, hrest⟩
  · rw [start, start, hbefore, List.length_append] at h
    rw [start, start, hbefore, List.length_append, Nat.add_le_add_iff_left]
    rcases Nat.lt_or_ge more.length r.word.length with hlt | hge
    · have hmore : more <+: r.word :=
        List.prefix_of_prefix_length_le ⟨_, hrest.symm⟩ ⟨_, rfl⟩ (Nat.le_of_lt hlt)
      have hne : more ≠ [] := List.length_pos_iff.1 (by omega)
      have hsolid := r.solid _ (hmore.subset (List.getLast_mem hne))
      have hblank := r'.blank_before (more.getLast hne)
        (by simp [hbefore, List.getLast?_eq_some_getLast hne])
      rw [hsolid] at hblank
      cases hblank
    · exact hge
  · rw [start, start, hbefore, List.length_append] at h
    omega

/-- A run does not begin with a blank. -/
theorem start_ne_of_blank {before rest : List Char} {c : Char} (htext : before ++ c :: rest = text)
    (hc : isBlank c = true) (r : Run text) : r.start ≠ before.length := by
  intro h
  have hsplit : before ++ (c :: rest) = r.before ++ (r.word ++ r.after) := by
    rw [htext, ← List.append_assoc, r.split]
  obtain ⟨_, hrest⟩ := List.append_inj hsplit h.symm
  obtain ⟨d, others, hword⟩ := List.exists_cons_of_ne_nil r.word_ne_nil
  have hsolid := r.solid d (by simp [hword])
  rw [hword, List.cons_append] at hrest
  obtain ⟨rfl, -⟩ := List.cons.inj hrest
  rw [hc] at hsolid
  cases hsolid

theorem start_lt_length (r : Run text) : r.start < text.length := by
  have hpos := List.length_pos_iff.2 r.word_ne_nil
  have hlength := congrArg List.length r.split
  simp only [List.length_append] at hlength
  unfold start
  omega

end Run

/-- These are the runs of the text that begin at a position or later, in order. -/
structure RunsFrom (text : List Char) (start : Nat) (runs : List (Run text)) : Prop where
  ordered : runs.Pairwise (·.start < ·.start)
  mem_iff : ∀ r, r ∈ runs ↔ start ≤ r.start

namespace RunsFrom

variable {text : List Char} {runs : List (Run text)}

theorem nil : RunsFrom text text.length [] := by
  refine ⟨List.Pairwise.nil, fun r => ?_⟩
  have hstart := r.start_lt_length
  simp only [List.not_mem_nil, false_iff]
  omega

theorem skip {before rest : List Char} {c : Char} (htext : before ++ c :: rest = text)
    (hc : isBlank c = true) (h : RunsFrom text (before.length + 1) runs) :
    RunsFrom text before.length runs := by
  refine ⟨h.ordered, fun r => ?_⟩
  have hne := r.start_ne_of_blank htext hc
  rw [h.mem_iff]
  omega

theorem cons (r : Run text) (h : RunsFrom text (r.start + r.word.length) runs) :
    RunsFrom text r.start (r :: runs) := by
  have hpos := List.length_pos_iff.2 r.word_ne_nil
  refine ⟨List.pairwise_cons.2 ⟨fun r' hr' => ?_, h.ordered⟩, fun r' => ?_⟩
  · have hstart := (h.mem_iff r').1 hr'
    omega
  · rw [List.mem_cons, h.mem_iff]
    constructor
    · rintro (rfl | hstart)
      · exact Nat.le_refl _
      · omega
    · intro hstart
      rcases Nat.lt_or_eq_of_le hstart with hlt | heq
      · exact .inr (Run.end_le_of_start_lt hlt)
      · exact .inl (Run.eq_of_start_eq heq.symm)

/-- What was read since `before` is a run if there is anything, since what comes next is blank. -/
theorem close {before pending rest : List Char} (htext : before ++ pending.reverse ++ rest = text)
    (hbefore : ∀ c ∈ before.getLast?, isBlank c = true)
    (hpending : ∀ c ∈ pending, isBlank c = false) (hrest : ∀ c ∈ rest.head?, isBlank c = true)
    (h : RunsFrom text (before ++ pending.reverse).length runs) :
    ∃ runs', RunsFrom text before.length runs' ∧ runs'.map Run.word =
      if pending.isEmpty then runs.map Run.word else pending.reverse :: runs.map Run.word := by
  by_cases hnone : pending = []
  · subst hnone
    rw [List.reverse_nil, List.append_nil] at h
    exact ⟨runs, h, rfl⟩
  · let r : Run text :=
      { before, word := pending.reverse, after := rest, split := htext
        word_ne_nil := by simpa using hnone
        solid := by simpa using hpending
        blank_before := hbefore
        blank_after := hrest }
    rw [List.length_append] at h
    refine ⟨r :: runs, cons r h, ?_⟩
    simp [hnone, r]

end RunsFrom

/-- The scan stands before `rest`, and `pending` is what it has read of a run after `before`. -/
theorem exists_wordsFrom_eq_runs {text : List Char} (before pending rest : List Char)
    (htext : before ++ pending.reverse ++ rest = text)
    (hbefore : ∀ c ∈ before.getLast?, isBlank c = true)
    (hpending : ∀ c ∈ pending, isBlank c = false) :
    ∃ runs : List (Run text), RunsFrom text before.length runs ∧
      wordsFrom pending rest = runs.map Run.word := by
  induction rest generalizing before pending with
  | nil =>
    have hend : RunsFrom text (before ++ pending.reverse).length [] := by
      rw [List.append_nil] at htext
      exact htext ▸ .nil
    obtain ⟨runs, hruns, hwords⟩ := hend.close htext hbefore hpending (by simp)
    exact ⟨runs, hruns, hwords.symm⟩
  | cons c rest ih =>
    by_cases hc : isBlank c = true
    · -- A blank is in no run, so the runs that begin later begin behind it.
      obtain ⟨later, hlater, hrest⟩ := ih (before ++ pending.reverse ++ [c]) []
        (by simpa using htext) (by simpa using hc) (by simp)
      rw [List.length_append, List.length_singleton] at hlater
      obtain ⟨runs, hruns, hwords⟩ :=
        (hlater.skip htext hc).close htext hbefore hpending (by simpa using hc)
      refine ⟨runs, hruns, ?_⟩
      rw [wordsFrom, if_pos hc, hrest, hwords]
    · rw [wordsFrom, if_neg hc]
      have hsolid : ∀ d ∈ c :: pending, isBlank d = false :=
        List.forall_mem_cons.2 ⟨eq_false_of_ne_true hc, hpending⟩
      exact ih before (c :: pending) (by simpa using htext) hbefore hsolid

end ExprShell.Text
