/-
Splitting and joining strings (`Tool.split_join_inverse`). A string cut at a separator comes back
when the pieces are joined with it, and strings joined with a character that they do not hold come
back when the whole is cut at it; without a separator, a string is cut into its words, which are
its runs of characters that are not blank.
-/
import ExprShell.Machine.Host
import ExprShell.Proofs.Text.Split
import ExprShell.Tool.Run

namespace ExprShell

namespace Text

/-! ## Strings -/

theorem pieces_ne_nil (text separator : String) : pieces text separator ≠ [] := by
  simp [pieces, piecesFrom_ne_nil]

theorem join_pieces {separator : String} (hne : separator ≠ "") (text : String) :
    join separator (pieces text separator) = text := by
  have hne : separator.toList ≠ [] := by simpa using hne
  rw [← String.toList_inj, join, String.toList_intercalate, pieces, List.map_map]
  simpa [Function.comp_def] using intercalate_piecesFrom hne [] text.toList

theorem not_infix_of_mem_pieces {separator : String} (hne : separator ≠ "") {text piece : String}
    (h : piece ∈ pieces text separator) : ¬ separator.toList <:+: piece.toList := by
  have hne : separator.toList ≠ [] := by simpa using hne
  obtain ⟨chars, hchars, rfl⟩ := List.mem_map.1 h
  rw [String.toList_ofList]
  exact not_infix_of_mem_piecesFrom hne [] text.toList (by simp) chars hchars

theorem pieces_join {c : Char} {texts : List String} (hne : texts ≠ [])
    (h : ∀ text ∈ texts, c ∉ text.toList) :
    pieces (join (String.singleton c) texts) (String.singleton c) = texts := by
  have htexts : ∀ chars ∈ texts.map String.toList, c ∉ chars := by simpa using h
  rw [pieces, join, String.toList_intercalate, String.toList_singleton,
    piecesFrom_intercalate (by simpa using hne) htexts, List.map_map]
  simp [Function.comp_def]

theorem exists_words_eq_runs (text : String) :
    ∃ runs : List (Run text.toList), runs.Pairwise (·.start < ·.start) ∧ (∀ r, r ∈ runs) ∧
      words text = runs.map fun r => String.ofList r.word := by
  obtain ⟨runs, hruns, hwords⟩ := exists_wordsFrom_eq_runs [] [] text.toList rfl (by simp) (by simp)
  refine ⟨runs, hruns.ordered, fun r => (hruns.mem_iff r).2 (Nat.zero_le _), ?_⟩
  rw [words, hwords, List.map_map]
  rfl

end Text

/-! ## Tools -/

/-- Strings are the same as those of their texts, whatever their stamps. -/
theorem Node.sameAll_map_ofString {items : List Node}
    (h : ∀ n ∈ items, ∃ t text, n = .string t text) :
    sameAll ((items.map plain).map ofString) items = true := by
  induction items with
  | nil => rfl
  | cons n items ih =>
    obtain ⟨⟨t, text, rfl⟩, hitems⟩ := List.forall_mem_cons.1 h
    change (text == text && sameAll ((items.map plain).map ofString) items) = true
    rw [ih hitems, beq_self_eq_true, Bool.and_self]

namespace Tool

variable {σ : Type} (host : Host σ) (path : List String) (s : State σ)

theorem call_split (t u : Stamp) (text separator : String) :
    split.call host path [.string t text, .string u separator] s =
      (.ok (.data ((splitText text separator).map .ofString)), s) :=
  rfl

theorem call_join (t u : Stamp) (items : List Node) (separator : String) :
    join.call host path [.list t items, .string u separator] s =
      (.ok (.ofString (Text.join separator (items.map Node.plain))), s) :=
  rfl

theorem splitText_of_ne_empty {separator : String} (h : separator ≠ "") (text : String) :
    splitText text separator = Text.pieces text separator := by
  rw [splitText, if_neg (by simpa using h)]

theorem splitText_empty (text : String) : splitText text "" = Text.words text := by
  rw [splitText, if_pos (by decide)]

/-- **Splitting and joining are inverse.** A string splits at a separator that is not empty into at
least one string, none of which holds the separator, and joining them with it gives the string back.
One or more strings, none of which holds a character, come back when what joining them with it gave
is split at it. With an empty separator, a string splits into all its runs of characters that are
not blank, in the order in which they begin. -/
theorem split_join_inverse :
    (∀ (t u : Stamp) (text separator : String), separator ≠ "" →
      ∃ pieces : List String,
        split.call host path [.string t text, .string u separator] s =
          (.ok (.data (pieces.map .ofString)), s) ∧
        pieces ≠ [] ∧
        (∀ piece ∈ pieces, ¬ separator.toList <:+: piece.toList) ∧
        join.call host path [.data (pieces.map .ofString), .string u separator] s =
          (.ok (.ofString text), s)) ∧
    (∀ (t u : Stamp) (c : Char) (items : List Node), items ≠ [] →
      (∀ n ∈ items, ∃ t text, n = .string t text ∧ c ∉ text.toList) →
      ∃ joined pieces,
        join.call host path [.list t items, .string u (String.singleton c)] s = (.ok joined, s) ∧
        split.call host path [joined, .string u (String.singleton c)] s = (.ok pieces, s) ∧
        pieces.same (.list t items) = true) ∧
    ∀ (t u : Stamp) (text : String),
      ∃ runs : List (Text.Run text.toList),
        split.call host path [.string t text, .string u ""] s =
          (.ok (.data (runs.map fun r => .ofString (String.ofList r.word))), s) ∧
        runs.Pairwise (·.start < ·.start) ∧ ∀ r, r ∈ runs := by
  refine ⟨?_, ?_, ?_⟩
  · intro t u text separator hne
    refine ⟨Text.pieces text separator, ?_, Text.pieces_ne_nil _ _, ?_, ?_⟩
    · rw [call_split, splitText_of_ne_empty hne]
    · intro piece hpiece
      exact Text.not_infix_of_mem_pieces hne hpiece
    · have hplain : ((Text.pieces text separator).map Node.ofString).map Node.plain =
          Text.pieces text separator := by
        rw [List.map_map]
        exact List.map_id _
      rw [Node.data, call_join, hplain, Text.join_pieces hne]
  · intro t u c items hne hitems
    have hstrings : ∀ n ∈ items, ∃ t text, n = .string t text := by
      intro n hn
      obtain ⟨t, text, rfl, -⟩ := hitems n hn
      exact ⟨t, text, rfl⟩
    have hclear : ∀ text ∈ items.map Node.plain, c ∉ text.toList := by
      intro text htext
      obtain ⟨n, hn, rfl⟩ := List.mem_map.1 htext
      obtain ⟨t, text, rfl, hc⟩ := hitems n hn
      exact hc
    refine ⟨_, _, call_join host path s t u items _, call_split host path s {} u _ _, ?_⟩
    rw [splitText_of_ne_empty (by simp), Text.pieces_join (by simpa using hne) hclear, Node.data,
      Node.same]
    exact Node.sameAll_map_ofString hstrings
  · intro t u text
    obtain ⟨runs, hordered, hall, hwords⟩ := Text.exists_words_eq_runs text
    refine ⟨runs, ?_, hordered, hall⟩
    rw [call_split, splitText_empty, hwords, List.map_map]
    rfl

/-- A separator that overlaps itself and stands at both ends, and strings of which one is empty. -/
theorem split_join_inverse_overlapping :
    let host := Machine.host
    let s : State Machine := { env := {}, host := Machine.fresh }
    ("aa" ≠ "" ∧ ∃ pieces : List String,
      split.call host [] [.ofString "aaabaaaa", .ofString "aa"] s =
        (.ok (.data (pieces.map .ofString)), s) ∧
      pieces ≠ [] ∧ (∀ piece ∈ pieces, ¬ "aa".toList <:+: piece.toList) ∧
      join.call host [] [.data (pieces.map .ofString), .ofString "aa"] s =
        (.ok (.ofString "aaabaaaa"), s)) ∧
    ',' ∉ "b".toList ∧ ∃ joined pieces,
      join.call host [] [.data [.ofString "", .ofString "b"], .ofString (String.singleton ',')] s =
        (.ok joined, s) ∧
      split.call host [] [joined, .ofString (String.singleton ',')] s = (.ok pieces, s) ∧
      pieces.same (.data [.ofString "", .ofString "b"]) = true := by
  intro host s
  have hinverse := split_join_inverse host [] s
  have hclear : ',' ∉ "b".toList := by decide
  refine ⟨⟨by decide, hinverse.1 {} {} _ _ (by decide)⟩, hclear, ?_⟩
  refine hinverse.2.1 _ {} ',' _ (by simp) ?_
  intro n hn
  simp only [List.mem_cons, List.not_mem_nil, or_false] at hn
  rcases hn with rfl | rfl
  · exact ⟨{}, "", rfl, by decide⟩
  · exact ⟨{}, "b", rfl, hclear⟩

end Tool

end ExprShell
