/-
Programs are read one expression at a time. Going from index to index, with separators skipped and
each expression read by itself, finds what reading a program finds, nodes or fault
(`readEach_eq_program`). And an expression at an index is the one that the tokens from there on
start with (`readAt_eq_drop`): it does not depend on the tokens before it.
-/
import ExprShell.Proofs.Reader.Final

namespace ExprShell.Reader

variable {r r' : Reader} {start : Nat} {located : Located}

/-! ## Expressions at an index -/

/-- Where a statement ends, the tokens go on that reading it has left. -/
theorem drop_of_statement {p : Parsed Node (r.tokens.drop start).length}
    (h : statement r.context 0 (r.tokens.drop start) = .ok p) :
    r.tokens.drop (r.tokens.length - p.rest.length) = p.rest := by
  have hruns : Runs r.context (Goal.statement.plan 0) (r.tokens.drop start)
      (.ok ([p.value], p.rest)) := by
    rw [runs_iff, run, h]
    rfl
  have hsuffix : p.rest <:+ r.tokens := hruns.rest_suffix.trans (List.drop_suffix start r.tokens)
  exact (List.suffix_iff_eq_drop.1 hsuffix).symm

/-- An expression that is found is the statement at its index. It ends inside the tokens, where what
the statement leaves goes on, and the reader after it differs in its place only. -/
theorem statement_of_readAt (h : r.readAt start = (.ok located, r')) :
    (∃ p, statement r.context 0 (r.tokens.drop start) = .ok p ∧ p.value = located.node ∧
      p.rest = r.tokens.drop (located.endIndex + 1)) ∧
    start ≤ located.endIndex ∧ located.endIndex < r.tokens.length ∧
    r'.tokens = r.tokens ∧ r'.context = r.context := by
  cases hstatement : statement r.context 0 (r.tokens.drop start) with
  | error f =>
    rw [readAt_of_failure hstatement] at h
    cases h
  | ok p =>
    rw [readAt_of_statement hstatement] at h
    cases h
    have hshorter := p.shorter
    have hlength : (r.tokens.drop start).length = r.tokens.length - start := List.length_drop
    have hnext : r.tokens.length - p.rest.length - 1 + 1 = r.tokens.length - p.rest.length := by
      omega
    have hrest : p.rest = r.tokens.drop (r.tokens.length - p.rest.length - 1 + 1) := by
      rw [hnext]
      exact (drop_of_statement hstatement).symm
    refine ⟨⟨p, rfl, rfl, hrest⟩, ?_, ?_, rfl, rfl⟩
    · show start ≤ r.tokens.length - p.rest.length - 1
      omega
    · show r.tokens.length - p.rest.length - 1 < r.tokens.length
      omega

theorem failure_of_readAt {e : Fault} (h : r.readAt start = (.error e, r')) :
    ∃ f, statement r.context 0 (r.tokens.drop start) = .error f ∧ f.fault = e := by
  cases hstatement : statement r.context 0 (r.tokens.drop start) with
  | error f =>
    rw [readAt_of_failure hstatement] at h
    cases h
    exact ⟨f, rfl, rfl⟩
  | ok p =>
    rw [readAt_of_statement hstatement] at h
    cases h

/-- What a reader finds where the rule for statements gives a node. -/
theorem readAt_of_runs {n : Node} {rest : List Token}
    (h : Runs r.context (Goal.statement.plan 0) (r.tokens.drop start) (.ok ([n], rest))) :
    (r.readAt start).1 =
      .ok ⟨n, r.tokens.length - rest.length - 1, (r.tokens[start]?.map (·.line)).getD 0⟩ := by
  rw [runs_iff, run] at h
  cases hstatement : statement r.context 0 (r.tokens.drop start) with
  | error f =>
    rw [hstatement] at h
    cases h
  | ok p =>
    rw [hstatement] at h
    cases h
    rw [readAt_of_statement hstatement]

/-- The end of the input is on the same line for the tokens from an index on. -/
theorem lastLine_drop {tokens : List Token} (h : start < tokens.length) :
    lastLine (tokens.drop start) = lastLine tokens := by
  unfold lastLine
  rw [List.getLast?_drop, if_neg (Nat.not_le_of_lt h)]

/-- The same expression, so many tokens further on. -/
def Located.moved (located : Located) (count : Nat) : Located :=
  { located with endIndex := located.endIndex + count }

/-- What is found at an index is what the tokens from there on start with. -/
theorem readAt_eq_drop (r : Reader) (h : start < r.tokens.length) :
    (r.readAt start).1 =
      ((ofTokens (r.tokens.drop start) r.maxDepth).readAt 0).1.map (·.moved start) := by
  have hcontext : (ofTokens (r.tokens.drop start) r.maxDepth).context = r.context := by
    show Context.mk _ (lastLine (r.tokens.drop start)) = Context.mk _ (lastLine r.tokens)
    rw [lastLine_drop h]
    rfl
  cases hstatement : statement r.context 0 (r.tokens.drop start) with
  | error f =>
    have hdrop : statement (ofTokens (r.tokens.drop start) r.maxDepth).context 0
        ((ofTokens (r.tokens.drop start) r.maxDepth).tokens.drop 0) = .error f := by
      rw [hcontext]
      exact hstatement
    rw [readAt_of_failure hstatement, readAt_of_failure hdrop]
    rfl
  | ok p =>
    have hdrop : statement (ofTokens (r.tokens.drop start) r.maxDepth).context 0
        ((ofTokens (r.tokens.drop start) r.maxDepth).tokens.drop 0) = .ok p := by
      rw [hcontext]
      exact hstatement
    have hshorter := p.shorter
    have hlength : (r.tokens.drop start).length = r.tokens.length - start := List.length_drop
    have hindex : r.tokens.length - p.rest.length - 1 =
        (r.tokens.drop start).length - p.rest.length - 1 + start := by
      omega
    have hline : (r.tokens.drop start)[0]? = r.tokens[start]? := by
      rw [List.getElem?_drop, Nat.add_zero]
    rw [readAt_of_statement hstatement, readAt_of_statement hdrop]
    show Except.ok (Located.mk _ _ _) = Except.ok (Located.mk _ _ _)
    rw [hindex, ← hline]
    rfl

/-! ## One expression after another -/

/-- Expressions from an index to the end of the tokens, each read by itself. Separators are skipped,
and an expression is followed by what comes after its last token. -/
def readEach (r : Reader) (start : Nat) : Except Fault (List Node) :=
  if hstart : start < r.tokens.length then
    if r.tokens[start].shape = .separator then r.readEach (start + 1)
    else
      match hread : r.readAt start with
      | (.error e, _) => .error e
      | (.ok located, r') => (r'.readEach (located.endIndex + 1)).map (located.node :: ·)
  else .ok []
termination_by r.tokens.length - start
decreasing_by
  · omega
  · obtain ⟨-, hfirst, -, htokens, -⟩ := statement_of_readAt hread
    rw [htokens]
    omega

section Programs

variable {c : Context} {depth : Nat} {t : Token} {ts rest : List Token}

theorem program_of_statement {p : Parsed Node ts.length} (hts : ts = t :: rest)
    (ht : t.shape ≠ .separator) (h : statement c depth ts = .ok p) :
    program c depth ts = (program c depth p.rest).map (p.value :: ·) := by
  subst hts
  rw [program, if_neg ht, h]
  show (program c depth p.rest >>= fun ns => pure (p.value :: ns)) = _
  cases program c depth p.rest with
  | ok ns => rfl
  | error f => rfl

theorem program_of_failure {f : Failure} (hts : ts = t :: rest) (ht : t.shape ≠ .separator)
    (h : statement c depth ts = .error f) : program c depth ts = .error f := by
  subst hts
  rw [program, if_neg ht, h]
  rfl

end Programs

/-- Reading each expression by itself is reading a program. -/
theorem readEach_eq_program (r : Reader) (start : Nat) :
    r.readEach start = (program r.context 0 (r.tokens.drop start)).mapError (·.fault) := by
  fun_induction readEach r start with
  | case1 r start hstart hseparator ih =>
    rw [ih, List.drop_eq_getElem_cons hstart, program, if_pos hseparator]
  | case2 r start hstart hseparator e r' hread =>
    obtain ⟨f, hstatement, rfl⟩ := failure_of_readAt hread
    rw [program_of_failure (List.drop_eq_getElem_cons hstart) hseparator hstatement]
    rfl
  | case3 r start hstart hseparator located r' hread ih =>
    obtain ⟨⟨p, hstatement, hvalue, hrest⟩, -, -, htokens, hcontext⟩ := statement_of_readAt hread
    rw [ih, hcontext, htokens, ← hrest, ← hvalue,
      program_of_statement (List.drop_eq_getElem_cons hstart) hseparator hstatement]
    cases program r.context 0 p.rest with
    | ok ns => rfl
    | error f => rfl
  | case4 r start hstart =>
    rw [List.drop_eq_nil_of_le (Nat.le_of_not_lt hstart), program]
    rfl

theorem readAll_fst (r : Reader) :
    r.readAll.1 = (program r.context r.depth r.rest).mapError (·.fault) := by
  unfold readAll
  cases program r.context r.depth r.rest with
  | ok nodes => rfl
  | error f => rfl

/-- **A program is one expression after another.** A fresh reader finds in all its tokens, nodes or
fault, what it finds by reading one expression after another from the first index on. An expression
that any reader of the tokens finds at an index, whatever it has read before, is the one that the
tokens from there on start with, and ends so many tokens further on. -/
theorem readAll_eq_readEach (tokens : List Token) (maxDepth : Nat) :
    (ofTokens tokens maxDepth).readAll.1 = (ofTokens tokens maxDepth).readEach 0 ∧
    ∀ (r : Reader) (start : Nat), r.tokens = tokens → r.maxDepth = maxDepth →
      start < tokens.length →
        (r.readAt start).1 =
          ((ofTokens (tokens.drop start) maxDepth).readAt 0).1.map (·.moved start) := by
  constructor
  · rw [readAll_fst, readEach_eq_program]
    rfl
  · intro r start htokens hdepth hstart
    subst htokens hdepth
    exact readAt_eq_drop r hstart

/-- A binding between separators, of which it takes the second one, and a call after it. -/
theorem readAll_eq_readEach_binding :
    let tokens : List Token := [⟨";", 1⟩, ⟨"let", 1⟩, ⟨"x", 1⟩, ⟨"=", 1⟩, ⟨"5", 2⟩, ⟨";", 2⟩,
      ⟨"(", 3⟩, ⟨"f", 3⟩, ⟨")", 3⟩]
    let bound := callAt 0 (Plan.boundItems 1 false "x" [.number { depth := 1 } (.int 5)])
    (ofTokens tokens 4).readEach 0 = .ok [bound, callAt 0 [operatorAt 1 "f"]] ∧
      1 < tokens.length ∧ ((ofTokens tokens 4).readAt 1).1 = .ok ⟨bound, 5, 1⟩ := by
  intro tokens bound
  have hvalue : Runs ⟨4, 3⟩ ((Goal.letValue ⟨"let", 1⟩).plan 1)
      [⟨"5", 2⟩, ⟨";", 2⟩, ⟨"(", 3⟩, ⟨"f", 3⟩, ⟨")", 3⟩]
      (.ok ([.number { depth := 1 } (.int 5)], [⟨";", 2⟩, ⟨"(", 3⟩, ⟨"f", 3⟩, ⟨")", 3⟩])) :=
    .peek (.just (.peek (.just (.peek (.shift .give)))))
  have hbound : Runs ⟨4, 3⟩ (Goal.statement.plan 0) (tokens.drop 1)
      (.ok ([bound], [⟨"(", 3⟩, ⟨"f", 3⟩, ⟨")", 3⟩])) := by
    refine .peek (.shift (.just (.peek (.peek (.shift (.peek (.shift ?_)))))))
    exact .deeper (by decide) (.readOk hvalue (.peek (.shift .give)))
  have hitems : Runs ⟨4, 3⟩ ((Goal.items .paren ⟨"(", 3⟩ false true).plan 1)
      [⟨"f", 3⟩, ⟨")", 3⟩] (.ok ([nameAt 1 "f"], [])) :=
    .peek (.readOk (.peek (.shift .give)) (.readOk (.peek (.shift .give)) .give))
  have hcall : Runs ⟨4, 3⟩ (Goal.program.plan 0) [⟨"(", 3⟩, ⟨"f", 3⟩, ⟨")", 3⟩]
      (.ok ([callAt 0 [operatorAt 1 "f"]], [])) := by
    refine runs_program (by decide) (.peek (.just (.peek (.shift ?_))))
    exact .deeper (by decide) (.readOk hitems (.peekEnd .give))
  have hprogram : Runs ⟨4, 3⟩ (Goal.program.plan 0) tokens
      (.ok ([bound, callAt 0 [operatorAt 1 "f"]], [])) :=
    .peek (.shift (.just (.peek (.readOk hbound (.readOk hcall .give)))))
  have heach := readAll_eq_readEach tokens 4
  refine ⟨?_, by decide, ?_⟩
  · rw [← heach.1, readAll_of_runs hprogram rfl]
    rfl
  · rw [heach.2 (ofTokens tokens 4) 1 rfl rfl (by decide),
      readAt_of_runs (r := ofTokens (tokens.drop 1) 4) hbound]
    rfl

end ExprShell.Reader
