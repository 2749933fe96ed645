/-
Arguments (`arguments_exchange`): up to a separator they are read as up to a closer, if no keyword
stands among them outside of delimiters.

What an element is does not depend on what comes after it, as long as no arrow does
(`exchanges_element`): words and all that stands between delimiters are read by themselves, and the
body of a function is an element again.
-/
import ExprShell.Proofs.Reader.Extent

namespace ExprShell

/-! ## Tokens -/

namespace Token

/-- Nested sequences without a keyword outside of their delimiters. -/
inductive KeywordFree : List Token → Prop where
  | nil : KeywordFree []
  | neutral {t : Token} {ts : List Token} : t.IsNeutral → t.keyword? = none → KeywordFree ts →
    KeywordFree (t :: ts)
  | group {opening closing : Token} {inner ts : List Token} :
    closing.Closes opening → Nested inner → KeywordFree ts →
      KeywordFree (opening :: inner ++ closing :: ts)

theorem KeywordFree.nested {ts : List Token} (h : KeywordFree ts) : Nested ts := by
  induction h with
  | nil => exact .nil
  | neutral ht _ _ ih => exact .neutral ht ih
  | group hcloses hinner _ ih => exact .group hcloses hinner ih

theorem IsNeutral.not_opener {t : Token} {o : Opener} (h : t.IsNeutral) : t.shape ≠ .opener o := by
  intro ho
  rcases h with h | h
  · rw [h] at ho
    cases ho
  · rw [h] at ho
    cases ho

theorem KeywordFree.of_neutral {t : Token} {ts : List Token} (h : KeywordFree (t :: ts))
    (ht : t.IsNeutral) : KeywordFree ts := by
  generalize hus : t :: ts = us at h
  cases h with
  | nil => cases hus
  | neutral _ _ h =>
    cases hus
    exact h
  | group hcloses _ _ =>
    cases hus
    obtain ⟨o, ho, -⟩ := hcloses
    exact absurd ho ht.not_opener

theorem KeywordFree.of_opener {t : Token} {ts : List Token} {o : Opener}
    (h : KeywordFree (t :: ts)) (ht : t.shape = .opener o) :
    ∃ inner closing rest, ts = inner ++ closing :: rest ∧ Nested inner ∧
      closing.shape = .closer o.closer ∧ KeywordFree rest := by
  generalize hus : t :: ts = us at h
  cases h with
  | nil => cases hus
  | neutral hneutral _ _ =>
    cases hus
    exact absurd ht hneutral.not_opener
  | @group _ closing inner rest hcloses hinner hrest =>
    cases hus
    obtain ⟨o', ho', hclosing⟩ := hcloses
    rw [ht] at ho'
    cases ho'
    exact ⟨inner, closing, rest, rfl, hinner, hclosing, hrest⟩

end Token

namespace Reader

open Token (Nested KeywordFree)

variable {c : Context} {maxDepth line line' depth : Nat} {nodes : List Node}
  {ts inner f f' left : List Token} {t opening closing : Token} {o : Opener} {keywords : Bool}

/-! ## Elements -/

/-- No element starts here. -/
def EndsElements (f : List Token) : Prop :=
  ∀ t rest, f = t :: rest → t.shape = .separator ∨ ∃ k, t.shape = .closer k

theorem EndsElements.nil : EndsElements [] := by
  intro t rest h
  cases h

theorem EndsElements.separator (ht : t.shape = .separator) : EndsElements (t :: ts) := by
  intro t' rest h
  cases h
  exact .inl ht

theorem EndsElements.closer {k : Closer} (ht : t.shape = .closer k) : EndsElements (t :: ts) := by
  intro t' rest h
  cases h
  exact .inr ⟨k, ht⟩

theorem EndsElements.noArrow (h : EndsElements f) : NoArrow f := by
  intro t rest hf harrow
  have hshape : t.shape = .word := by simp [Token.shape, harrow]
  rcases h t rest hf with hseparator | ⟨k, hcloser⟩
  · rw [hshape] at hseparator
    cases hseparator
  · rw [hshape] at hcloser
    cases hcloser

theorem EndsElements.not_runs (h : EndsElements f) {r : List Node × List Token} :
    ¬ Runs c ((Goal.element keywords).plan depth) f (.ok r) := by
  intro hruns
  obtain ⟨t, rest, hf, hplan⟩ := hruns.exists_token (fun _ hend => by cases hend)
  rcases h t rest hf with hseparator | ⟨k, hcloser⟩
  · rw [hseparator] at hplan
    cases hplan
  · rw [hcloser] at hplan
    cases hplan

theorem NoArrow.exchange (h : NoArrow (ts ++ f)) (hf' : EndsElements f') : NoArrow (ts ++ f') := by
  cases ts with
  | nil => exact hf'.noArrow
  | cons t ts => exact .cons (h t (ts ++ f) rfl)

/-- Of tokens that end with `ts` and `f`, a reading has left some of the last of `ts`, and `f`. With
`f'` in the place of `f`, as in `tokens'`, the plan gives these nodes and leaves the same of `ts`. -/
def Exchanges (c : Context) (p : Plan) (ts f f' tokens' : List Token) (nodes : List Node)
    (left : List Token) : Prop :=
  ∃ us, KeywordFree us ∧ us <:+ ts ∧ left = us ++ f ∧ Runs c p tokens' (.ok (nodes, us ++ f'))

/-- What comes after elements of fewer tokens does not matter. -/
def ExchangesBelow (maxDepth line line' : Nat) (f f' : List Token) (bound : Nat) : Prop :=
  ∀ us : List Token, us.length < bound → KeywordFree us → ∀ depth nodes left,
    Runs ⟨maxDepth, line⟩ ((Goal.element true).plan depth) (us ++ f) (.ok (nodes, left)) →
      Exchanges ⟨maxDepth, line'⟩ ((Goal.element true).plan depth) us f f' (us ++ f') nodes left

theorem suffix_after_closer (before ts : List Token) (closing : Token) :
    ts <:+ before ++ closing :: ts := by
  rw [List.append_cons]
  exact List.suffix_append _ _

theorem exchanges_functionBody (hts : KeywordFree ts) (hf : EndsElements f)
    (below : ExchangesBelow maxDepth line line' f f' (ts.length + 1))
    (h : Runs ⟨maxDepth, line⟩ ((Goal.functionBody opening).plan depth) (ts ++ f)
      (.ok (nodes, left))) :
    Exchanges ⟨maxDepth, line'⟩ ((Goal.functionBody opening).plan depth) ts f f' (ts ++ f') nodes
      left := by
  cases ts with
  | nil =>
    obtain ⟨t, rest, hrest, hplan⟩ := h.exists_token (fun _ hend => by cases hend)
    have hbrace : t.shape ≠ .opener .brace := by
      intro hbrace
      rcases hf t rest hrest with hseparator | ⟨k, hcloser⟩
      · rw [hbrace] at hseparator
        cases hseparator
      · rw [hbrace] at hcloser
        cases hcloser
    rw [if_neg hbrace, ← hrest] at hplan
    exact absurd hplan.of_deeper.2.of_just hf.not_runs
  | cons t ts =>
    rw [List.cons_append] at h
    have hplan := h.of_peek
    by_cases hbrace : t.shape = .opener .brace
    · rw [if_pos hbrace] at hplan
      obtain ⟨inner, closing, rest, rfl, hinner, hclosing, hrest⟩ := hts.of_opener hbrace
      obtain ⟨hdepth, hplan⟩ := hplan.of_shift.of_deeper
      obtain ⟨ms, after, hstatements, hgive⟩ := hplan.of_read
      rw [List.append_assoc] at hstatements
      obtain ⟨rfl, hwithin⟩ := hstatements.within rfl hinner hclosing
      cases hgive
      refine ⟨rest, hrest, suffix_after_closer (t :: inner) rest closing, rfl, ?_⟩
      rw [List.cons_append, List.append_assoc]
      refine .peek ?_
      rw [if_pos hbrace]
      exact .shift (.deeper hdepth (.readOk (hwithin _ _) .give))
    · rw [if_neg hbrace] at hplan
      obtain ⟨hdepth, hplan⟩ := hplan.of_deeper
      obtain ⟨us, hus, hsuffix, hleft, helement⟩ :=
        below (t :: ts) (Nat.lt_succ_self _) hts _ _ _ hplan.of_just
      exact ⟨us, hus, hsuffix, hleft, runs_body hbrace hdepth helement⟩

theorem exchanges_listExpression (hinner : Nested inner)
    (hclosing : closing.shape = .closer o.closer) (hts : KeywordFree ts) (hf : EndsElements f) (hf' : EndsElements f')
    (below : ExchangesBelow maxDepth line line' f f' (ts.length + 1))
    (h : Runs ⟨maxDepth, line⟩ (.listExpression depth o opening) (inner ++ closing :: (ts ++ f))
      (.ok (nodes, left))) :
    Exchanges ⟨maxDepth, line'⟩ (.listExpression depth o opening) ts f f'
      (inner ++ closing :: (ts ++ f')) nodes left := by
  obtain ⟨hdepth, items, after, hitems, hcall | hfunction⟩ := h.of_listExpression
  · obtain ⟨harrow, rfl, ns, hns, rfl⟩ := hcall
    obtain ⟨rfl, hwithin⟩ := hitems.within rfl hinner hclosing
    refine ⟨ts, hts, List.suffix_refl ts, rfl, ?_⟩
    exact runs_call hdepth (hwithin line' (ts ++ f')) hns (harrow.exchange hf')
  · obtain ⟨arrow, body, params, ns, hafter, harrow, hparams, hbody, rfl⟩ := hfunction
    obtain ⟨rfl, hwithin⟩ := hitems.within rfl hinner hclosing
    cases ts with
    | nil => exact absurd harrow (hf.noArrow arrow body hafter)
    | cons t ts =>
      cases hafter
      have hneutral : arrow.IsNeutral := .inl (by simp [Token.shape, harrow])
      obtain ⟨us, hus, hsuffix, hleft, hbody⟩ := exchanges_functionBody (hts.of_neutral hneutral) hf
        (fun us hlength => below us (Nat.lt_succ_of_lt hlength)) hbody
      refine ⟨us, hus, hsuffix.trans (List.suffix_cons _ _), hleft, ?_⟩
      exact runs_function hdepth (hwithin line' _) hparams harrow hbody

theorem exchanges_opened (hinner : Nested inner) (hclosing : closing.shape = .closer o.closer)
    (hts : KeywordFree ts) (hf : EndsElements f) (hf' : EndsElements f')
    (below : ExchangesBelow maxDepth line line' f f' (ts.length + 1))
    (h : Runs ⟨maxDepth, line⟩ (.opened depth opening o) (inner ++ closing :: (ts ++ f))
      (.ok (nodes, left))) :
    Exchanges ⟨maxDepth, line'⟩ (.opened depth opening o) ts f f'
      (inner ++ closing :: (ts ++ f')) nodes left := by
  cases o with
  | paren | bracket => exact exchanges_listExpression hinner hclosing hts hf hf' below h
  | quotedParen | quotedBracket | brace =>
    obtain ⟨hdepth, hplan⟩ := h.of_deeper
    obtain ⟨ms, after, hread, hgive⟩ := hplan.of_read
    obtain ⟨rfl, hwithin⟩ := hread.within rfl hinner hclosing
    cases hgive
    exact ⟨ts, hts, List.suffix_refl ts, rfl, .deeper hdepth (.readOk (hwithin _ _) .give)⟩

theorem exchanges_element {keywords' : Bool} (hts : KeywordFree ts) (hf : EndsElements f)
    (hf' : EndsElements f') (below : ExchangesBelow maxDepth line line' f f' ts.length)
    (h : Runs ⟨maxDepth, line⟩ ((Goal.element keywords).plan depth) (ts ++ f) (.ok (nodes, left))) :
    Exchanges ⟨maxDepth, line'⟩ ((Goal.element keywords').plan depth) ts f f' (ts ++ f') nodes
      left := by
  cases hts with
  | nil => exact absurd h hf.not_runs
  | @neutral t ts ht hkeyword hts =>
    rw [List.cons_append] at h
    rcases ht with hword | hseparator
    · obtain ⟨rfl, m, hm, rfl⟩ := element_word_inv hword (.inl hkeyword) h
      exact ⟨ts, hts, List.suffix_cons t ts, rfl, runs_word hword (.inl hkeyword) hm⟩
    · have hplan := h.of_peek
      rw [hseparator] at hplan
      cases hplan
  | @group opening closing inner ts hcloses hinner hts =>
    obtain ⟨o, hopening, hclosing⟩ := hcloses
    simp only [List.append_assoc, List.cons_append] at h ⊢
    have hbelow : ExchangesBelow maxDepth line line' f f' (ts.length + 1) := by
      intro us hlength
      apply below us
      simp only [List.length_append, List.length_cons]
      omega
    obtain ⟨us, hus, hsuffix, hleft, hruns⟩ :=
      exchanges_opened hinner hclosing hts hf hf' hbelow (element_opener_inv hopening h)
    have hwhole := hsuffix.trans (suffix_after_closer (opening :: inner) ts closing)
    exact ⟨us, hus, hwhole, hleft, runs_opened hopening hruns⟩

theorem exchangesBelow (hf : EndsElements f) (hf' : EndsElements f') (bound : Nat) :
    ExchangesBelow maxDepth line line' f f' bound := by
  induction bound with
  | zero =>
    intro us hlength
    exact absurd hlength (Nat.not_lt_zero _)
  | succ bound ih =>
    intro us hlength hus depth nodes left h
    refine exchanges_element hus hf hf' (fun us' hlength' => ih us' ?_) h
    omega

/-! ## Arguments -/

/-- The token can be the first of an element. -/
def StartsElement (t : Token) : Prop :=
  t.shape = .word ∨ ∃ o, t.shape = .opener o

/-- The goal reads elements, one after the other, up to this token. -/
structure ReadsUpTo (goal : Goal) (keywords : Bool) (last : Token) : Prop where
  ends : EndsElements [last]
  stop : ∀ {c : Context} {depth : Nat}, Runs c (goal.plan depth) [last] (.ok ([], []))
  step : ∀ depth t, StartsElement t → ∃ atEnd next, goal.plan depth = .peek atEnd next ∧
    next t = .sequence (.element keywords) goal depth
  separator : ∀ {c : Context} {depth : Nat} {t : Token} {ts : List Token} {nodes : List Node},
    t.shape = .separator → ts ≠ [] → ¬ Runs c (goal.plan depth) (t :: ts) (.ok (nodes, []))

theorem readsUpTo_separator (head : Token) (ht : t.shape = .separator) :
    ReadsUpTo (.bareArgs head) false t where
  ends := .separator ht
  stop := by
    intro c depth
    refine .peek ?_
    rw [ht]
    exact .shift .give
  step := by
    intro depth t hshape
    refine ⟨_, _, rfl, ?_⟩
    rcases hshape with hword | ⟨o, ho⟩
    · rw [hword]
    · rw [ho]
  separator := by
    intro c depth t ts nodes hshape hts h
    have hplan := h.of_peek
    rw [hshape] at hplan
    have hgive := hplan.of_shift
    cases hgive
    exact hts rfl

theorem readsUpTo_closer (opening : Token) (ht : t.shape = .closer o.closer) :
    ReadsUpTo (.items o opening false false) true t where
  ends := .closer ht
  stop := runs_items_closed ht
  step := by
    intro depth t hshape
    refine ⟨_, _, rfl, ?_⟩
    rcases hshape with hword | ⟨o, ho⟩
    · rw [hword]
      rfl
    · rw [ho]
      rfl
  separator := by
    intro c depth t ts nodes hshape _ h
    have hplan := h.of_peek
    rw [hshape] at hplan
    obtain ⟨ms, left, helement, -⟩ := hplan.of_read
    exact (EndsElements.separator hshape).not_runs helement

/-- **Arguments are the same up to a separator as up to a closer.** -/
theorem arguments_exchange {goal goal' : Goal} {keywords' : Bool} {last last' : Token}
    (hgoal : ReadsUpTo goal keywords last) (hgoal' : ReadsUpTo goal' keywords' last')
    (hts : KeywordFree ts)
    (h : Runs ⟨maxDepth, line⟩ (goal.plan depth) (ts ++ [last]) (.ok (nodes, []))) :
    Runs ⟨maxDepth, line'⟩ (goal'.plan depth) (ts ++ [last']) (.ok (nodes, [])) := by
  induction hlength : ts.length using Nat.strongRecOn generalizing ts nodes with
  | ind bound ih =>
    subst hlength
    -- words and openers are alike here: an element is read, and the loop goes on after it
    have hstep : ∀ t us, ts = t :: us → StartsElement t →
        Runs ⟨maxDepth, line'⟩ (goal'.plan depth) (ts ++ [last']) (.ok (nodes, [])) := by
      intro t us heq ht
      obtain ⟨atEnd, next, hplan, hnext⟩ := hgoal.step depth t ht
      obtain ⟨atEnd', next', hplan', hnext'⟩ := hgoal'.step depth t ht
      subst heq
      rw [hplan, List.cons_append] at h
      have hread := h.of_peek
      rw [hnext] at hread
      obtain ⟨ms, left, helement, hread⟩ := hread.of_read
      obtain ⟨ns, rest, hothers, hgive⟩ := hread.of_read
      cases hgive
      have hshorter := single_shorter (runs_iff.1 helement)
      obtain ⟨us', hus', -, rfl, helement'⟩ := exchanges_element hts hgoal.ends hgoal'.ends
        (exchangesBelow hgoal.ends hgoal'.ends _) helement
      have hfewer : us'.length < (t :: us).length := by
        simp only [List.length_append, List.length_cons] at hshorter ⊢
        omega
      have hothers' := ih us'.length hfewer hus' hothers rfl
      rw [hplan']
      refine .peek ?_
      rw [hnext']
      exact .readOk helement' (.readOk hothers' .give)
    cases hts with
    | nil =>
      cases h.unique hgoal.stop
      exact hgoal'.stop
    | neutral ht hkeyword hrest =>
      rcases ht with hword | hseparator
      · exact hstep _ _ rfl (.inl hword)
      · exact absurd h (hgoal.separator hseparator (by simp))
    | group hcloses hinner hrest =>
      obtain ⟨o, ho, -⟩ := hcloses
      exact hstep _ _ rfl (.inr ⟨o, ho⟩)

end Reader

end ExprShell
