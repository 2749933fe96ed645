/-
Text that more lines could complete (`submit_of_completable`): the loop waits for them, but for a
few faults at the end of the input that it takes for final.

Two readings of the same plan, one with more tokens, go the same way up to the end of the shorter
input. There the shorter one is cut short or gives what it has, or else the longer one fails
as well (`Runs.extend`). Which of these it is can be told from the plan alone: `EndsShort` says
what a plan comes to at the end of the input, and `Extends` asks it of every place in a plan where
the input may end.
-/
import ExprShell.Machine.Host
import ExprShell.Proofs.Reader.Final
import ExprShell.Proofs.Token.Lines

namespace ExprShell

/-! ## Faults at the end of the input -/

/-- Faults that more lines might mend and that the loop takes for final. Too deep a nesting is
among them for one case: a keyword bound by `let` is a name if a `;` follows and starts a form
otherwise. -/
def Fault.isOverlooked : Fault → Bool
  | .syntactic _ cause =>
    match cause with
    | .emptyCall | .missingFunctionBody | .missingTerminator _ | .missing _ none
    | .missingLetValue | .unterminatedLet | .missingScrutinee | .missingBranchBody
    | .tooDeep _ => true
    | _ => false
  | _ => false

/-- More lines might mend the fault, whether the loop waits for them or not. -/
def Fault.isCutShort (f : Fault) : Bool :=
  f.isIncomplete || f.isOverlooked

theorem Fault.isIncomplete_eq_not_isOverlooked {f : Fault} (h : f.isCutShort = true) :
    f.isIncomplete = !f.isOverlooked := by
  cases f with
  | syntactic line cause =>
    cases cause with
    | missing what found => cases found <;> first | rfl | cases h
    | _ => first | rfl | cases h
  | lexical line cause => cases cause <;> first | rfl | cases h
  | _ => cases h

namespace Reader

/-! ## Plans at the end of the input -/

/-- At the end of the input the goal may give nodes that would be others if tokens followed. -/
def Goal.isLoose : Goal → Bool
  | .items .. | .statements _ | .bareArgs _ | .branchList _ => false
  | _ => true

/-- The outcome comes of the end of the input. -/
def CutShort (loose : Bool) : Result → Prop
  | .ok (_, rest) => loose = true ∧ rest = []
  | .error f => f.fault.isCutShort = true

namespace Plan

/-- At the end of the input, what comes of the plan comes of that end. -/
def EndsShort (loose : Bool) : Plan → Prop
  | .give _ => loose = true
  | .refuse _ line cause => (Fault.syntactic line cause).isCutShort = true
  | .refuseAtEnd _ cause => ∀ line, (Fault.syntactic line cause).isCutShort = true
  | .peek atEnd _ => atEnd.EndsShort loose
  | .shift _ => True
  | .deeper _ _ next => next.EndsShort loose
  | .read goal _ next => goal.isLoose = true → ∀ nodes count, (next nodes count).EndsShort loose

/-- The plan fails on all tokens. -/
def Fails : Plan → Prop
  | .refuse .. => True
  | .shift next => next.Fails
  | _ => False

/-- Wherever the plan may meet the end of the input, it ends short there or fails on. -/
def Extends (loose : Bool) : Plan → Prop
  | .give _ | .refuse .. | .refuseAtEnd .. => True
  | .peek atEnd next =>
    (atEnd.EndsShort loose ∨ (atEnd.Fails ∧ ∀ t, (next t).Fails)) ∧
      ∀ t, (next t).Extends loose
  | .shift next | .deeper _ _ next => next.Extends loose
  | .read goal _ next =>
    ∀ nodes count, (next nodes count).Extends loose ∧
      (goal.isLoose = true → (next nodes count).EndsShort loose)

variable {loose : Bool} {depth : Nat} {opening keyword t : Token} {items : List Node}

theorem Fails.error {c : Context} {p : Plan} {ts : List Token} {r : Result} (hp : p.Fails)
    (h : Runs c p ts r) : ∃ f, r = .error f := by
  induction h with
  | refuse => exact ⟨_, rfl⟩
  | shift _ ih => exact ih hp
  | _ => cases hp

/-! ### Parts -/

theorem extends_just (goal : Goal) (depth : Nat) : (just goal depth).Extends true :=
  fun _ _ => ⟨trivial, fun _ => rfl⟩

theorem endsShort_just (goal : Goal) (depth : Nat) : (just goal depth).EndsShort true :=
  fun _ _ _ => rfl

theorem extends_word (change : Node → Node) : (word depth t change).Extends loose := by
  unfold word
  cases atom depth t with
  | _ => trivial

theorem extends_call : (call depth opening items).Extends loose := by
  unfold call
  cases callItems items with
  | _ => trivial

/-- Of what is no head of a call, nothing is a list of parameters either. -/
theorem paramNames_of_badHead {n : Node} (h : callItems items = .error (.badHead n)) :
    ∃ cause, paramNames items = .error cause := by
  unfold callItems at h
  unfold paramNames
  split at h
  · cases h
  · next head args =>
    split at h
    · next s name =>
      split at h
      · next hquoted => exact ⟨_, if_pos hquoted⟩
      · cases h
    · exact ⟨_, rfl⟩
    · exact ⟨_, rfl⟩
    · next hname _ _ =>
      cases head with
      | identifier s name => exact absurd rfl (hname s name)
      | _ => exact ⟨_, rfl⟩

theorem extends_delimited (depth : Nat) {o : Opener} {quoted : Bool} {next : List Node → Plan}
    (h : ∀ items, (next items).Extends loose) :
    (delimited depth o opening quoted next).Extends loose :=
  fun items _ => ⟨h items, fun hloose => by cases hloose⟩

theorem extends_dataList (o : Opener) : (dataList depth o opening).Extends loose :=
  extends_delimited depth fun _ => trivial

theorem extends_function : (function depth opening items).Extends true := by
  unfold function
  cases paramNames items with
  | error cause => trivial
  | ok params => exact fun _ _ => ⟨trivial, fun _ => rfl⟩

/-- After its items an expression in parentheses is a call at the end of the input. An arrow may
make it a function, unless it is neither. -/
theorem extends_listExpression (o : Opener) : (listExpression depth o opening).Extends true := by
  refine extends_delimited depth fun items => ⟨?_, fun arrow => ?_⟩
  · cases hcall : callItems items with
    | ok items' =>
      left
      rw [call, hcall]
      exact rfl
    | error cause =>
      obtain rfl | ⟨n, rfl⟩ := callItems_error hcall
      · left
        rw [call, hcall]
        exact rfl
      · right
        obtain ⟨cause, hparams⟩ := paramNames_of_badHead hcall
        have hfails : (call depth opening items).Fails := by
          rw [call, hcall]
          trivial
        refine ⟨hfails, fun arrow => ?_⟩
        dsimp only
        split
        · rw [function, hparams]
          trivial
        · exact hfails
  · dsimp only
    split
    · exact extends_function
    · exact extends_call

theorem extends_block (depth : Nat) {next : List Node → Plan} (h : ∀ body, (next body).Extends loose) :
    (block depth opening next).Extends loose :=
  fun body _ => ⟨h body, fun hloose => by cases hloose⟩

theorem extends_opened : ∀ o : Opener, (opened depth opening o).Extends true
  | .paren => extends_listExpression .paren
  | .bracket => extends_listExpression .bracket
  | .quotedParen => extends_dataList .quotedParen
  | .quotedBracket => extends_dataList .quotedBracket
  | .brace => extends_block _ fun _ => trivial

theorem extends_named : (named depth t).Extends true := by
  unfold named
  split
  · exact extends_just _ _
  · refine ⟨.inl rfl, fun next => ?_⟩
    dsimp only
    split
    · trivial
    · exact extends_just _ _

theorem endsShort_named : (named depth t).EndsShort true := by
  unfold named
  split
  · exact endsShort_just _ _
  · exact rfl

theorem endsShort_letEnd {single : Bool} {node : Node} :
    (letEnd depth keyword single node).EndsShort true := by
  cases single with
  | _ => exact rfl

theorem extends_letEnd {single : Bool} {node : Node} :
    (letEnd depth keyword single node).Extends true := by
  refine ⟨.inl endsShort_letEnd, fun t => ?_⟩
  dsimp only
  split
  · trivial
  · split <;> trivial

theorem extends_letEquals {isGlobal : Bool} {name : String} :
    (letEquals depth keyword isGlobal name).Extends true := by
  refine ⟨.inl fun _ => rfl, fun eq => ?_⟩
  dsimp only
  split
  · exact fun value count => ⟨extends_letEnd, fun _ => endsShort_letEnd⟩
  · trivial

theorem extends_letName {isGlobal : Bool} : (letName depth keyword isGlobal).Extends true := by
  refine ⟨.inl fun _ => rfl, fun name => ?_⟩
  dsimp only
  split
  · exact extends_letEquals
  · trivial

theorem extends_letForm : (letForm depth keyword).Extends true := by
  refine ⟨.inl fun _ => rfl, fun t => ?_⟩
  dsimp only
  split
  · refine ⟨.inl fun _ => rfl, fun next => ?_⟩
    dsimp only
    split
    · exact extends_letEquals
    · exact extends_letName
  · exact extends_letName

theorem extends_branches {next : List Node → Plan} (h : ∀ bs, (next bs).Extends loose) :
    (branches depth keyword next).Extends loose := by
  refine fun bs _ => ⟨?_, fun hloose => by cases hloose⟩
  dsimp only
  split
  · trivial
  · exact h bs

theorem extends_matchForm : (matchForm depth keyword).Extends loose := by
  refine ⟨.inl rfl, fun _ value _ => ⟨extends_branches fun _ => trivial, fun _ hloose => ?_⟩⟩
  cases hloose

theorem extends_condForm : (condForm depth keyword).Extends loose :=
  extends_branches fun _ => trivial

theorem extends_branch : (branch depth keyword).Extends false := by
  refine fun pattern _ => ⟨⟨.inl fun _ => rfl, fun arrow => ?_⟩, fun _ _ => rfl⟩
  dsimp only
  split
  · refine ⟨.inl rfl, fun _ body _ => ⟨fun _ _ => ⟨trivial, fun hloose => ?_⟩, fun _ hloose => ?_⟩⟩
    · cases hloose
    · cases hloose
  · trivial

/-- A sequence that is cut short goes on to its other elements, which are cut short too. -/
theorem extends_sequence {first others : Goal} (h : others.isLoose = loose) :
    (sequence first others depth).Extends loose := by
  refine fun n _ => ⟨fun ns _ => ⟨trivial, fun hloose => ?_⟩, fun _ hloose _ _ => ?_⟩
  all_goals exact h.symm.trans hloose

end Plan

/-! ## Rules -/

theorem Goal.endsShort_plan (goal : Goal) (depth : Nat) :
    (goal.plan depth).EndsShort goal.isLoose := by
  cases goal with
  | program | items | functionBody | statements | bareArgs | letValue | branchList => exact rfl
  | statement | element | dataElement | pattern => exact fun _ => rfl
  | bareCall head => exact fun hloose => by cases hloose
  | keywordForm k keyword =>
    cases k with
    | letWord => exact fun _ => rfl
    | matchWord => exact rfl
    | condWord => exact fun hloose => by cases hloose

theorem Goal.extends_plan (goal : Goal) (depth : Nat) :
    (goal.plan depth).Extends goal.isLoose := by
  cases goal with
  | bareCall head => exact fun _ _ => ⟨trivial, fun _ => rfl⟩
  | keywordForm k keyword =>
    cases k with
    | letWord => exact Plan.extends_letForm
    | matchWord => exact Plan.extends_matchForm
    | condWord => exact Plan.extends_condForm
  | program =>
    refine ⟨.inl (Goal.program.endsShort_plan depth), fun t => ?_⟩
    dsimp only
    split
    · exact Plan.extends_just .program depth
    · exact Plan.extends_sequence rfl
  | statement =>
    refine ⟨.inl (Goal.statement.endsShort_plan depth), fun t => ?_⟩
    dsimp only
    split
    · exact Plan.extends_named
    · exact Plan.extends_just _ _
  | element keywords =>
    refine ⟨.inl ((Goal.element keywords).endsShort_plan depth), fun t => ?_⟩
    dsimp only
    split
    · exact Plan.extends_opened _
    · trivial
    · trivial
    · split
      · next k _ => exact Plan.extends_just (.keywordForm k t) depth
      · exact Plan.extends_word id
  | items o opening quoted first =>
    refine ⟨.inl ((Goal.items o opening quoted first).endsShort_plan depth), fun t => ?_⟩
    dsimp only
    split
    · split <;> trivial
    · exact Plan.extends_sequence rfl
  | dataElement =>
    refine ⟨.inl (Goal.dataElement.endsShort_plan depth), fun t => ?_⟩
    dsimp only
    split
    · trivial
    · trivial
    · exact Plan.extends_dataList _
    · exact Plan.extends_word Node.quote
  | functionBody opening =>
    refine ⟨.inl ((Goal.functionBody opening).endsShort_plan depth), fun t => ?_⟩
    dsimp only
    split
    · exact Plan.extends_block depth fun _ => trivial
    · exact Plan.extends_just (.element true) (depth + 1)
  | statements opening =>
    refine ⟨.inl ((Goal.statements opening).endsShort_plan depth), fun t => ?_⟩
    dsimp only
    split
    · exact fun _ _ => ⟨trivial, fun hloose => hloose⟩
    · trivial
    · exact Plan.extends_sequence rfl
  | bareArgs head =>
    refine ⟨.inl ((Goal.bareArgs head).endsShort_plan depth), fun t => ?_⟩
    dsimp only
    split
    · trivial
    · trivial
    · exact Plan.extends_sequence rfl
  | letValue keyword =>
    refine ⟨.inl ((Goal.letValue keyword).endsShort_plan depth), fun t => ?_⟩
    dsimp only
    split
    · refine ⟨.inl Plan.endsShort_named, fun next => ?_⟩
      dsimp only
      split
      · trivial
      · exact Plan.extends_named
    · exact Plan.extends_just _ _
  | branchList keyword =>
    refine ⟨.inl ((Goal.branchList keyword).endsShort_plan depth), fun t => ?_⟩
    dsimp only
    split
    · trivial
    · split
      · exact Plan.extends_branch
      · split <;> trivial
  | pattern =>
    refine ⟨.inl (Goal.pattern.endsShort_plan depth), fun t => ?_⟩
    dsimp only
    split
    · exact Plan.extends_delimited depth fun _ => Plan.extends_call
    · exact Plan.extends_delimited depth fun _ => Plan.extends_call
    · exact Plan.extends_just _ _

/-! ## Readings -/

theorem Runs.cutShort {c : Context} {p : Plan} {ts : List Token} {r : Result}
    (h : Runs c p ts r) (hts : ts = []) {loose : Bool} (hp : p.EndsShort loose) :
    CutShort loose r := by
  induction h generalizing loose with
  | give => exact ⟨hp, hts⟩
  | refuse => exact hp
  | refuseAtEnd => exact hp c.lastLine
  | peekEnd _ ih => exact ih rfl hp
  | peek | shift => cases hts
  | deeper _ _ ih => exact ih hts hp
  | tooDeep => exact rfl
  | @readOk goal depth next nodes ts rest r _ _ ih ihnext =>
    obtain ⟨hloose, hrest⟩ := ih hts (goal.endsShort_plan depth)
    exact ihnext hrest (hp hloose nodes _)
  | @readError goal depth next ts f _ ih =>
    have hshort : CutShort goal.isLoose (.error f) := ih hts (goal.endsShort_plan depth)
    exact hshort

/-- **More tokens** change nothing, or let the reading fail, or the reading without them was cut
short. -/
theorem Runs.extend {maxDepth line line' : Nat} {more : List Token} {p : Plan} {ts : List Token}
    {r r' : Result} (h : Runs ⟨maxDepth, line⟩ p ts r) {loose : Bool} (hp : p.Extends loose)
    (h' : Runs ⟨maxDepth, line'⟩ p (ts ++ more) r') :
    r' = r.followedBy more ∨ (∃ f, r' = .error f) ∨ CutShort loose r := by
  induction h generalizing loose r' with
  | give =>
    cases h' with
    | give => exact .inl rfl
  | refuse =>
    cases h' with
    | refuse => exact .inl rfl
  | refuseAtEnd =>
    cases h' with
    | refuseAtEnd => exact .inr (.inl ⟨_, rfl⟩)
  | @peekEnd atEnd next r hend ih =>
    obtain hshort | ⟨hatEnd, hnext⟩ := hp.1
    · exact .inr (.inr (hend.cutShort rfl hshort))
    · refine .inr (.inl ?_)
      cases h' with
      | peekEnd h' => exact hatEnd.error h'
      | peek h' => exact (hnext _).error h'
  | peek _ ih =>
    cases h' with
    | peek h' => exact ih (hp.2 _) h'
  | shift _ ih =>
    cases h' with
    | shift h' => exact ih hp h'
  | deeper hdepth _ ih =>
    cases h' with
    | deeper _ h' => exact ih hp h'
    | tooDeep hdepth' => exact absurd hdepth hdepth'
  | tooDeep hdepth =>
    cases h' with
    | deeper hdepth' _ => exact absurd hdepth' hdepth
    | tooDeep => exact .inl rfl
  | @readOk goal depth next nodes ts rest r hread hnext ih ihnext =>
    cases h' with
    | readError => exact .inr (.inl ⟨_, rfl⟩)
    | @readOk _ _ _ nodes' _ rest' _ hread' hnext' =>
      obtain hsame | ⟨f, hfails⟩ | ⟨hloose, rfl⟩ := ih (goal.extends_plan depth) hread'
      · cases hsame
        have hlength : rest.length ≤ ts.length := hread.rest_suffix.length_le
        have hcount : (ts ++ more).length - (rest ++ more).length = ts.length - rest.length := by
          simp only [List.length_append]
          omega
        rw [hcount] at hnext'
        exact ihnext (hp nodes _).1 hnext'
      · cases hfails
      · exact .inr (.inr (hnext.cutShort rfl ((hp nodes _).2 hloose)))
  | @readError goal depth next ts f _ ih =>
    cases h' with
    | readError => exact .inr (.inl ⟨_, rfl⟩)
    | readOk hread' _ =>
      obtain hsame | ⟨f, hfails⟩ | hshort := ih (goal.extends_plan depth) hread'
      · cases hsame
      · cases hfails
      · exact .inr (.inr hshort)

/-- Where more tokens make a program of what is none, the fault is one of the end of the input. -/
theorem isCutShort_of_readAll {tokens more : List Token} {maxDepth : Nat} {e : Fault}
    {nodes : List Node} (h : (ofTokens tokens maxDepth).readAll.1 = .error e)
    (h' : (ofTokens (tokens ++ more) maxDepth).readAll.1 = .ok nodes) : e.isCutShort = true := by
  have hfails := (runs_of_readAll_error (Prod.ext h rfl)).1
  have hreads := runs_of_readAll_ok (Prod.ext h' rfl)
  obtain hsame | ⟨f, hfails'⟩ | hshort := hfails.extend (Goal.program.extends_plan 0) hreads
  · cases hsame
  · cases hfails'
  · exact hshort

end Reader

/-! ## Submissions -/

theorem Reader.parse_of_runs {source : String} {tokens : List Token} {maxDepth line : Nat}
    {outcome : Reader.Result}
    (h : Reader.Runs ⟨maxDepth, line⟩ (Reader.Goal.program.plan 0) tokens outcome)
    (hline : line = Reader.lastLine tokens) (htokens : tokenize source = .ok tokens) :
    parse source maxDepth = (outcome.delivered tokens maxDepth).1 := by
  rw [parse, htokens]
  exact congrArg Prod.fst (Reader.readAll_of_runs h hline)

theorem isCutShort_of_parse {text more : String} {maxDepth : Nat} {fault : Fault}
    {program : List Node} (h : parse text maxDepth = .error fault)
    (h' : parse (text ++ "\n" ++ more) maxDepth = .ok program) : fault.isCutShort = true := by
  cases htokens : tokenize text with
  | error fault' =>
    have hfault : fault' = fault := by
      rw [parse, htokens] at h
      cases h
      rfl
    obtain ⟨line, hopen⟩ | herror := tokenize_append_of_error htokens ("\n" ++ more)
    · rw [← hfault, hopen]
      rfl
    · rw [← String.append_assoc] at herror
      rw [parse, herror] at h'
      cases h'
  | ok tokens =>
    rw [parse, htokens] at h
    rw [parse, tokenize_append_newline htokens] at h'
    cases hmore : tokenize more with
    | error fault' =>
      rw [hmore] at h'
      cases h'
    | ok later =>
      rw [hmore] at h'
      exact Reader.isCutShort_of_readAll h h'

variable {σ : Type}

/-- **What more lines could complete is waited for, unless its fault is overlooked.** Of a text
that is no program, and is one with more lines, the loop asks for more lines and has done nothing;
the overlooked faults it reports at once. -/
theorem Repl.submit_of_completable {setup : Setup σ} {text more : String} {fault : Fault}
    {program : List Node} (h : setup.read text = .error fault)
    (h' : setup.read (text ++ "\n" ++ more) = .ok program) (s : State σ) :
    Repl.submit setup text s =
      if fault.isOverlooked then (some (.error (.fault fault)), s) else (none, s) := by
  have hcut : fault.isCutShort = true := isCutShort_of_parse h h'
  rw [Repl.submit, h]
  simp only [Fault.isIncomplete_eq_not_isOverlooked hcut]
  cases fault.isOverlooked with
  | _ => rfl

/-- Two open calls, the inner one on a line of its own. -/
theorem Repl.submit_of_completable_calls :
    let setup : Setup Machine := { host := Machine.host }
    let s := Session.start Machine.fresh
    setup.read "(f\n(g" = .error (.syntactic 2 (.unclosed "(" ")")) ∧
      (∃ program, setup.read ("(f\n(g" ++ "\n" ++ "5))") = .ok program) ∧
      Repl.submit setup "(f\n(g" s = (none, s) := by
  intro setup s
  have hcut : Reader.Runs ⟨128, 2⟩ (Reader.Goal.program.plan 0)
      [⟨"(", 1⟩, ⟨"f", 1⟩, ⟨"(", 2⟩, ⟨"g", 2⟩]
      (.error (Reader.failAt 2 (.unclosed "(" ")") [] 2)) := by
    refine .peek (.readError (.peek (.just (.peek (.shift ?_)))))
    refine .deeper (by decide) (.readError (.peek ?_))
    refine .readOk (.peek (.shift .give)) (.readError (.peek (.readError (.peek (.shift ?_)))))
    refine .deeper (by decide) (.readError (.peek ?_))
    exact .readOk (.peek (.shift .give)) (.readError (.peekEnd .refuse))
  have hnumber : Reader.Runs ⟨128, 3⟩ ((Reader.Goal.items .paren ⟨"(", 2⟩ false false).plan 2)
      [⟨"5", 3⟩, ⟨")", 3⟩, ⟨")", 3⟩] (.ok ([.number { depth := 2 } (.int 5)], [⟨")", 3⟩])) :=
    .peek (.readOk (.peek (.shift .give)) (.readOk (.peek (.shift .give)) .give))
  have hitems : Reader.Runs ⟨128, 3⟩ ((Reader.Goal.items .paren ⟨"(", 2⟩ false true).plan 2)
      [⟨"g", 2⟩, ⟨"5", 3⟩, ⟨")", 3⟩, ⟨")", 3⟩]
      (.ok ([Reader.nameAt 2 "g", .number { depth := 2 } (.int 5)], [⟨")", 3⟩])) :=
    .peek (.readOk (.peek (.shift .give)) (.readOk hnumber .give))
  have hinner : Reader.Runs ⟨128, 3⟩ ((Reader.Goal.items .paren ⟨"(", 1⟩ false false).plan 1)
      [⟨"(", 2⟩, ⟨"g", 2⟩, ⟨"5", 3⟩, ⟨")", 3⟩, ⟨")", 3⟩]
      (.ok ([Reader.callAt 1 [Reader.operatorAt 2 "g", .number { depth := 2 } (.int 5)]], [])) :=
    .peek (.readOk (.peek (.shift (.deeper (by decide) (.readOk hitems (.peek .give)))))
      (.readOk (.peek (.shift .give)) .give))
  have houter : Reader.Runs ⟨128, 3⟩ ((Reader.Goal.items .paren ⟨"(", 1⟩ false true).plan 1)
      [⟨"f", 1⟩, ⟨"(", 2⟩, ⟨"g", 2⟩, ⟨"5", 3⟩, ⟨")", 3⟩, ⟨")", 3⟩]
      (.ok ([Reader.nameAt 1 "f",
        Reader.callAt 1 [Reader.operatorAt 2 "g", .number { depth := 2 } (.int 5)]], [])) :=
    .peek (.readOk (.peek (.shift .give)) (.readOk hinner .give))
  have hcall : Reader.Runs ⟨128, 3⟩ (Reader.Goal.program.plan 0)
      [⟨"(", 1⟩, ⟨"f", 1⟩, ⟨"(", 2⟩, ⟨"g", 2⟩, ⟨"5", 3⟩, ⟨")", 3⟩, ⟨")", 3⟩]
      (.ok ([Reader.callAt 0 [Reader.operatorAt 1 "f",
        Reader.callAt 1 [Reader.operatorAt 2 "g", .number { depth := 2 } (.int 5)]]], [])) :=
    .peek (.readOk
      (.peek (.just (.peek (.shift (.deeper (by decide) (.readOk houter (.peekEnd .give)))))))
      (.readOk (.peekEnd .give) .give))
  have hopen : setup.read "(f\n(g" = .error (.syntactic 2 (.unclosed "(" ")")) :=
    Reader.parse_of_runs hcut rfl rfl
  have hclosed : setup.read ("(f\n(g" ++ "\n" ++ "5))") = _ := Reader.parse_of_runs hcall rfl rfl
  exact ⟨hopen, ⟨_, hclosed⟩, Repl.submit_of_completable hopen hclosed s⟩

/-- A binding without its value is reported, though the next line could give the value. -/
theorem Repl.submit_missing_value :
    let setup : Setup Machine := { host := Machine.host }
    let s := Session.start Machine.fresh
    setup.read "let x =" = .error (.syntactic 1 .missingLetValue) ∧
      (∃ program, setup.read ("let x =" ++ "\n" ++ "5;") = .ok program) ∧
      Repl.submit setup "let x =" s =
        (some (.error (.fault (.syntactic 1 .missingLetValue))), s) := by
  intro setup s
  have hcut : Reader.Runs ⟨128, 1⟩ (Reader.Goal.program.plan 0)
      [⟨"let", 1⟩, ⟨"x", 1⟩, ⟨"=", 1⟩] (.error (Reader.failAt 1 .missingLetValue [] 1)) := by
    refine .peek (.readError (.peek (.shift (.just (.peek (.peek (.shift (.peek ?_))))))))
    exact .shift (.deeper (by decide) (.readError (.peekEnd .refuse)))
  have hvalue : Reader.Runs ⟨128, 2⟩ ((Reader.Goal.letValue ⟨"let", 1⟩).plan 1)
      [⟨"5", 2⟩, ⟨";", 2⟩] (.ok ([.number { depth := 1 } (.int 5)], [⟨";", 2⟩])) :=
    .peek (.just (.peek (.just (.peek (.shift .give)))))
  have hstatement : Reader.Runs ⟨128, 2⟩ (Reader.Goal.statement.plan 0)
      [⟨"let", 1⟩, ⟨"x", 1⟩, ⟨"=", 1⟩, ⟨"5", 2⟩, ⟨";", 2⟩]
      (.ok ([Reader.callAt 0 (Reader.Plan.boundItems 1 false "x"
        [.number { depth := 1 } (.int 5)])], [])) := by
    refine .peek (.shift (.just (.peek (.peek (.shift (.peek (.shift ?_)))))))
    exact .deeper (by decide) (.readOk hvalue (.peek (.shift .give)))
  have hlet : Reader.Runs ⟨128, 2⟩ (Reader.Goal.program.plan 0)
      [⟨"let", 1⟩, ⟨"x", 1⟩, ⟨"=", 1⟩, ⟨"5", 2⟩, ⟨";", 2⟩]
      (.ok ([Reader.callAt 0 (Reader.Plan.boundItems 1 false "x"
        [.number { depth := 1 } (.int 5)])], [])) :=
    .peek (.readOk hstatement (.readOk (.peekEnd .give) .give))
  have hopen : setup.read "let x =" = .error (.syntactic 1 .missingLetValue) :=
    Reader.parse_of_runs hcut rfl rfl
  refine ⟨hopen, ⟨_, Reader.parse_of_runs hlet rfl rfl⟩, ?_⟩
  rw [Repl.submit, hopen]
  rfl

end ExprShell
