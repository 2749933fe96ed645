/-
A failure at a token is final (`readAll_failure_final`): where the reader stops before the end of
the tokens, more tokens change nothing, and the loop does not ask for them.

Only the end of the input is read differently once more tokens follow, and a run that leaves a
token never got there (`Runs.append`). What the loop takes for incomplete is reported nowhere else
(`Justified.rest_eq_nil`).
-/
import ExprShell.Proofs.Reader.Contract
import ExprShell.Repl

namespace ExprShell.Reader

/-! ## More tokens -/

/-- The tokens that an outcome leaves. -/
def Result.rest : Result → List Token
  | .ok (_, rest) => rest
  | .error f => f.rest

/-- The outcome where more tokens follow. -/
def Result.followedBy (more : List Token) : Result → Result
  | .ok (nodes, rest) => .ok (nodes, rest ++ more)
  | .error f => .error { f with rest := f.rest ++ more }

theorem Runs.rest_suffix {c : Context} {p : Plan} {ts : List Token} {r : Result}
    (h : Runs c p ts r) : r.rest <:+ ts := by
  induction h with
  | give | refuse | refuseAtEnd | tooDeep _ => exact List.suffix_refl _
  | peekEnd _ ih | peek _ ih | deeper _ _ ih | readError _ ih => exact ih
  | shift _ ih => exact ih.trans (List.suffix_cons _ _)
  | readOk _ _ ih ihnext => exact ihnext.trans ih

/-- What follows the tokens is not looked at by a run that leaves one of them. -/
theorem Runs.append {maxDepth line line' : Nat} (more : List Token) {p : Plan} {ts : List Token}
    {r : Result} (h : Runs ⟨maxDepth, line⟩ p ts r) (hrest : r.rest ≠ []) :
    Runs ⟨maxDepth, line'⟩ p (ts ++ more) (r.followedBy more) := by
  induction h with
  | give => exact .give
  | refuse => exact .refuse
  | refuseAtEnd => exact absurd rfl hrest
  | peekEnd h => exact absurd (List.suffix_nil.1 h.rest_suffix) hrest
  | peek _ ih => exact .peek (ih hrest)
  | shift _ ih => exact .shift (ih hrest)
  | deeper hdepth _ ih => exact .deeper hdepth (ih hrest)
  | tooDeep hdepth => exact .tooDeep hdepth
  | @readOk goal depth next nodes ts rest r _ hnext ih ihnext =>
    have hleft : rest ≠ [] := by
      rintro rfl
      exact hrest (List.suffix_nil.1 hnext.rest_suffix)
    have hcount : (ts ++ more).length - (rest ++ more).length = ts.length - rest.length := by
      simp only [List.length_append]
      omega
    exact .readOk (ih hleft) (hcount ▸ ihnext hrest)
  | readError _ ih => exact .readError (ih hrest)

/-! ## What is incomplete -/

/-- What is taken for incomplete is reported at the end. -/
theorem Justified.rest_eq_nil {final : List Token → Option (List Token)} {line : Nat}
    {cause : SyntaxCause} {rest : List Token} (h : Justified final line cause rest)
    (hincomplete : (Fault.syntactic line cause).isIncomplete = true) : rest = [] := by
  cases cause with
  | unclosed | unclosedForm => exact h.1
  | unexpectedEnd => exact h
  | _ => cases hincomplete

/-! ## Whole programs -/

/-- The number of tokens consumed. -/
def position (r : Reader) : Nat :=
  r.tokens.length - r.rest.length

/-- **A failure at a token is final.** Where reading stops before the end of the tokens, it stops
with the same fault at the same position whatever tokens follow, the fault is not taken for
incomplete, and a text with such tokens is not held back for more lines. -/
theorem readAll_failure_final {tokens : List Token} {maxDepth : Nat} {e : Fault} {r : Reader}
    (h : (ofTokens tokens maxDepth).readAll = (.error e, r))
    (hposition : r.position < tokens.length) (more : List Token) :
    (∃ r', (ofTokens (tokens ++ more) maxDepth).readAll = (.error e, r') ∧
      r'.position = r.position ∧ r'.depth = r.depth) ∧
    e.isIncomplete = false ∧
    ∀ {σ : Type} (setup : Setup σ) (text : String) (s : State σ),
      setup.settings.maxReadDepth = maxDepth → tokenize text = .ok (tokens ++ more) →
        Repl.submit setup text s = (some (.error (.fault e)), s) := by
  obtain ⟨hruns, hr⟩ := runs_of_readAll_error h
  have hrest : r.rest ≠ [] := by
    intro hnil
    rw [hr, position, hnil] at hposition
    exact Nat.lt_irrefl _ hposition
  have hcomplete : e.isIncomplete = false := by
    cases hincomplete : e.isIncomplete with
    | false => rfl
    | true =>
      obtain ⟨line, cause, rfl, hjustified⟩ := delivers_of_runs hruns
      exact absurd (hjustified.rest_eq_nil hincomplete) hrest
  have hmore := readAll_of_runs (hruns.append more hrest) rfl
  refine ⟨⟨_, hmore, ?_, rfl⟩, hcomplete, ?_⟩
  · rw [hr, position, position]
    simp only [List.length_append]
    omega
  · intro σ setup text s hsettings htokens
    have hread : setup.read text = .error e := by
      rw [Setup.read, parse, hsettings, htokens]
      exact congrArg Prod.fst hmore
    rw [Repl.submit, hread]
    simp [hcomplete]

/-- A call that a bracket closes, with the parenthesis it needs on the next line. -/
theorem readAll_failure_final_mismatched :
    ∃ r r' : Reader,
      (ofTokens [⟨"(", 1⟩, ⟨"f", 1⟩, ⟨"]", 1⟩] 4).readAll =
        (.error (.syntactic 1 (.mismatched "]" "(" 1 ")")), r) ∧ r.position = 2 ∧
      (ofTokens ([⟨"(", 1⟩, ⟨"f", 1⟩, ⟨"]", 1⟩] ++ [⟨")", 2⟩]) 4).readAll =
        (.error (.syntactic 1 (.mismatched "]" "(" 1 ")")), r') ∧ r'.position = 2 := by
  have hfails : Runs ⟨4, 1⟩ (Goal.program.plan 0) [⟨"(", 1⟩, ⟨"f", 1⟩, ⟨"]", 1⟩]
      (.error (failAt 1 (.mismatched "]" "(" 1 ")") [⟨"]", 1⟩] 1)) := by
    refine .peek (.readError (.peek (.just (.peek (.shift ?_)))))
    refine .deeper (by decide) (.readError (.peek ?_))
    exact .readOk (.peek (.shift .give)) (.readError (.peek .refuse))
  have hread := readAll_of_runs hfails rfl
  obtain ⟨⟨r', hagain, hposition, -⟩, -⟩ := readAll_failure_final hread (by decide) [⟨")", 2⟩]
  exact ⟨_, r', hread, rfl, hagain, hposition⟩

end ExprShell.Reader
