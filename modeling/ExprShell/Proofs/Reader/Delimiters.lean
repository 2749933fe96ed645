/-
Delimiters (`readAll_delimiters`): what is read as a program is properly nested, and an opener
that is reported as unclosed is the innermost one that is open at the end of the tokens.

The reader promises both for each thing it reads (`reading_kept`). Left to show is that the message
tells an unclosed opener from other causes, some of which are put in the same words.
-/
import ExprShell.Proofs.Reader.Contract

namespace ExprShell.Reader

open Token (nestAll Nested)

/-! ## Messages -/

/-- The third letter of a message tells those about unclosed things from most others. -/
theorem cause_of_message {cause : SyntaxCause} {more : String}
    (h : cause.message = "unclosed '" ++ more) :
    (∃ text expected, cause = .unclosed text expected) ∨
      ∃ keyword, cause = .unclosedForm keyword ∨ cause = .noBranches keyword := by
  have hletter := congrArg (fun s => s.toList[2]?) h
  cases cause with
  | unclosed text expected => exact .inl ⟨text, expected, rfl⟩
  | unclosedForm keyword => exact .inr ⟨keyword, .inl rfl⟩
  | noBranches keyword => exact .inr ⟨keyword, .inr rfl⟩
  | _ =>
    delta SyntaxCause.message at hletter
    simp [toString] at hletter

/-- Forms with branches are not reported in the words for openers. -/
theorem message_of_startsBranches {cause : SyntaxCause} {keyword more : String}
    (hkeyword : StartsBranches keyword)
    (hcause : cause = .unclosedForm keyword ∨ cause = .noBranches keyword) :
    cause.message ≠ "unclosed '" ++ more := by
  intro h
  have hlist := congrArg String.toList h
  rcases hkeyword with rfl | rfl <;> rcases hcause with rfl | rfl <;>
    delta SyntaxCause.message at hlist <;> simp [toString, Keyword.text] at hlist

theorem opener_of_message {o o' : Opener} {expected more : String}
    (h : (SyntaxCause.unclosed o'.text expected).message = "unclosed '" ++ o.text ++ "'" ++ more) :
    o' = o := by
  have hlist : ("unclosed '" ++ o'.text ++ "': expected '" ++ expected ++ "'").toList =
      ("unclosed '" ++ o.text ++ "'" ++ more).toList := congrArg String.toList h
  simp only [String.toList_append, List.append_assoc, List.append_cancel_left_eq] at hlist
  cases o <;> cases o' <;> simp [Opener.text] at hlist ⊢

/-! ## Whole programs -/

/-- **Delimiters are properly nested.** The tokens of a program that is read are nested, each
opener closed by its own kind of closer. Where a message says that an opener is unclosed, scanning
all tokens meets no mismatch, and the innermost opener left open is one of that kind on the line
that is reported. -/
theorem readAll_delimiters (tokens : List Token) (maxDepth : Nat) :
    (∀ nodes r, (ofTokens tokens maxDepth).readAll = (.ok nodes, r) → Nested tokens) ∧
    ∀ line cause r (o : Opener) more,
      (ofTokens tokens maxDepth).readAll = (.error (.syntactic line cause), r) →
      cause.message = "unclosed '" ++ o.text ++ "'" ++ more →
        ∃ top below, nestAll tokens [] = some (top :: below) ∧ top.shape = .opener o ∧
          top.text = o.text ∧ top.line = line := by
  refine ⟨?_, ?_⟩
  · intro nodes r h
    obtain ⟨-, hbalanced⟩ := delivers_of_runs (runs_of_readAll_ok h)
    exact Token.nested_iff.2 (hbalanced [])
  · intro line cause r o more h hmessage
    obtain ⟨_, _, ⟨⟩, hjustified⟩ := delivers_of_runs (runs_of_readAll_error h).1
    have hmessage' : cause.message = "unclosed '" ++ (o.text ++ "'" ++ more) := by
      rw [hmessage]
      simp only [String.append_assoc]
    rcases cause_of_message hmessage' with ⟨text, expected, rfl⟩ | ⟨keyword, hcause⟩
    · obtain ⟨top, below, o', hfinal, hshape, htext, hline⟩ := hjustified.2 []
      rw [← htext, text_of_opener hshape] at hmessage
      cases opener_of_message hmessage
      exact ⟨top, below, hfinal, hshape, text_of_opener hshape, hline⟩
    · have hkeyword : StartsBranches keyword := by
        rcases hcause with rfl | rfl
        · exact hjustified.2
        · exact hjustified
      exact absurd hmessage' (message_of_startsBranches hkeyword hcause)

/-- A call with a list in it, and the same where the list stays open. -/
theorem readAll_delimiters_list :
    Nested [⟨"(", 1⟩, ⟨"f", 1⟩, ⟨"'[", 2⟩, ⟨"]", 2⟩, ⟨")", 2⟩] ∧
    ∃ top below, nestAll [⟨"(", 1⟩, ⟨"f", 1⟩, ⟨"'[", 2⟩, ⟨"a", 2⟩] [] = some (top :: below) ∧
      top.shape = .opener .quotedBracket ∧ top.text = "'[" ∧ top.line = 2 := by
  have hdata : Runs ⟨4, 2⟩ ((Goal.element true).plan 1) [⟨"'[", 2⟩, ⟨"]", 2⟩, ⟨")", 2⟩]
      (.ok ([.list { depth := 1, quoted := true } []], [⟨")", 2⟩])) :=
    .peek (.shift (.deeper (by decide) (.readOk (.peek (.shift .give)) .give)))
  have hitems : Runs ⟨4, 2⟩ ((Goal.items .paren ⟨"(", 1⟩ false true).plan 1)
      [⟨"f", 1⟩, ⟨"'[", 2⟩, ⟨"]", 2⟩, ⟨")", 2⟩]
      (.ok ([nameAt 1 "f", .list { depth := 1, quoted := true } []], [])) :=
    .peek (.readOk (.peek (.shift .give))
      (.readOk (.peek (.readOk hdata (.readOk (.peek (.shift .give)) .give))) .give))
  have hcall : Runs ⟨4, 2⟩ (Goal.program.plan 0)
      [⟨"(", 1⟩, ⟨"f", 1⟩, ⟨"'[", 2⟩, ⟨"]", 2⟩, ⟨")", 2⟩]
      (.ok ([callAt 0 [operatorAt 1 "f", .list { depth := 1, quoted := true } []]], [])) :=
    .peek (.readOk
      (.peek (.just (.peek (.shift (.deeper (by decide) (.readOk hitems (.peekEnd .give)))))))
      (.readOk (.peekEnd .give) .give))
  have hopen : Runs ⟨4, 2⟩ (Goal.program.plan 0) [⟨"(", 1⟩, ⟨"f", 1⟩, ⟨"'[", 2⟩, ⟨"a", 2⟩]
      (.error (failAt 2 (.unclosed "'[" "]") [] 2)) := by
    refine .peek (.readError (.peek (.just (.peek (.shift ?_)))))
    refine .deeper (by decide) (.readError (.peek ?_))
    refine .readOk (.peek (.shift .give)) (.readError (.peek (.readError (.peek (.shift ?_)))))
    refine .deeper (by decide) (.readError (.peek ?_))
    exact .readOk (.peek (.shift .give)) (.readError (.peekEnd .refuse))
  have hread := readAll_of_runs hcall rfl
  have hfails := readAll_of_runs hopen rfl
  exact ⟨(readAll_delimiters _ 4).1 _ _ hread,
    (readAll_delimiters _ 4).2 _ _ _ .quotedBracket ": expected ']'" hfails rfl⟩

end ExprShell.Reader
