/-
What the reader promises, rule by rule (`reading_kept`). Three things go together:

  the nodes that are read are code, and inert values where quoted data is read;
  scanning the tokens that were consumed with a stack of open delimiters leaves the stack as it
  was, but for the openers that came along with the goal;
  what is taken for incomplete is reported at the end of the input only, and an opener is
  reported as unclosed only if it is then the innermost one that is open.
-/
import ExprShell.Proofs.Node.Inert
import ExprShell.Proofs.Reader.Agreement
import ExprShell.Proofs.Token.Nesting

namespace ExprShell.Reader

open Node (IsCode IsValue)
open Token (nestAll IsNeutral Closes)

/-! ## Promises -/

/-- The nodes that a goal gives. -/
def Goal.Gives : Goal → Node → Prop
  | .dataElement => IsValue
  | .items _ _ true _ => IsValue
  | _ => IsCode

/-- The openers that come along with a goal and that it has to close. -/
def Goal.openers : Goal → List Token
  | .items _ opening _ _ => [opening]
  | .statements opening => [opening]
  | _ => []

/-- Words that start a form with branches. -/
def StartsBranches (text : String) : Prop :=
  text = Keyword.matchWord.text ∨ text = Keyword.condWord.text

/-- The tokens that come along with a goal are what its rule takes them for, and no closer stands
where quoted data is read. -/
def Goal.Fits (goal : Goal) (ts : List Token) : Prop :=
  match goal with
  | .items o opening _ _ => opening.shape = .opener o
  | .statements opening => opening.shape = .opener .brace
  | .dataElement => ∀ t rest, ts = t :: rest → t.isCloser = false
  | .keywordForm k keyword => keyword.text = k.text
  | .branchList keyword => StartsBranches keyword.text
  | _ => True

/-- The innermost opener at the end has this text and line, whatever is open before. -/
def LeavesOpen (final : List Token → Option (List Token)) (text : String) (line : Nat) : Prop :=
  ∀ stack, ∃ top below o, final stack = some (top :: below) ∧ top.shape = .opener o ∧
    top.text = text ∧ top.line = line

/-- What the cause of a failure says of the tokens left over, and of the openers that are open at
the end of the input, which are given for each stack of openers before. -/
def Justified (final : List Token → Option (List Token)) (line : Nat) (cause : SyntaxCause)
    (rest : List Token) : Prop :=
  match cause with
  | .unclosed text _ => rest = [] ∧ LeavesOpen final text line
  | .unclosedForm keyword => rest = [] ∧ StartsBranches keyword
  | .unexpectedEnd => rest = []
  | .noBranches keyword => StartsBranches keyword
  | _ => True

/-- An outcome that keeps the promises. -/
def Delivers (P : Node → Prop) (final : List Token → Option (List Token)) : Result → Prop
  | .ok (nodes, rest) => (∀ n ∈ nodes, P n) ∧ ∀ stack, final stack = nestAll rest stack
  | .error f =>
    ∃ line cause, f.fault = .syntactic line cause ∧ Justified final line cause f.rest

def reading : Contract where
  pre goal _ ts := goal.Fits ts
  post goal _ ts r := Delivers goal.Gives (fun stack => nestAll ts (goal.openers ++ stack)) r

/-- On these tokens a plan gives such nodes and closes the openers. -/
def Plan.Delivers (c : Context) (P : Node → Prop) (openers : List Token) (p : Plan)
    (ts : List Token) : Prop :=
  p.Meets c reading (Reader.Delivers P fun stack => nestAll ts (openers ++ stack)) ts

/-- Causes that say nothing of open delimiters and can be reported anywhere. -/
def isOrdinary : SyntaxCause → Bool
  | .unclosed .. | .unclosedForm _ | .unexpectedEnd | .noBranches _ => false
  | _ => true

theorem justified_of_isOrdinary {cause : SyntaxCause} (h : isOrdinary cause = true)
    (final : List Token → Option (List Token)) (line : Nat) (rest : List Token) :
    Justified final line cause rest := by
  cases cause with
  | unclosed | unclosedForm | unexpectedEnd | noBranches => cases h
  | _ => trivial

/-- Openers outside of what is read do not matter. -/
theorem Justified.comp {final : List Token → Option (List Token)} {line : Nat}
    {cause : SyntaxCause} {rest : List Token} (h : Justified final line cause rest)
    (f : List Token → List Token) : Justified (fun stack => final (f stack)) line cause rest := by
  cases cause with
  | unclosed text expected => exact ⟨h.1, fun stack => h.2 (f stack)⟩
  | _ => exact h

/-! ## Parts -/

theorem text_of_opener {t : Token} {o : Opener} (h : t.shape = .opener o) : t.text = o.text := by
  unfold Token.shape at h
  split at h <;> cases h <;> assumption

theorem isCode_nameAt (depth : Nat) (name : String) : IsCode (nameAt depth name) :=
  .leaf rfl

/-- A call of an operator. -/
theorem isCode_operation {depth : Nat} {name : String} {args : List Node}
    (h : ∀ n ∈ args, IsCode n) : IsCode (callAt depth (operatorAt (depth + 1) name :: args)) :=
  Node.isCode_unquoted (List.forall_mem_cons.2 ⟨.leaf rfl, h⟩) rfl

theorem isLeaf_atom {depth : Nat} {t : Token} {n : Node} (h : atom depth t = .ok n) :
    n.isLeaf = true := by
  unfold atom at h
  repeat' split at h
  all_goals cases h
  all_goals rfl

theorem isLeaf_quote {n : Node} (h : n.isLeaf = true) : n.quote.isLeaf = true := by
  cases n with
  | list | function | rawAst => cases h
  | _ => rfl

theorem isCode_callItems {items items' : List Node} (h : callItems items = .ok items')
    (hitems : ∀ n ∈ items, IsCode n) : ∀ n ∈ items', IsCode n := by
  unfold callItems at h
  repeat' split at h
  all_goals cases h
  · rw [List.forall_mem_cons] at hitems ⊢
    exact ⟨.leaf rfl, hitems.2⟩
  · exact hitems
  · exact hitems

theorem isCode_boundItems {depth : Nat} {isGlobal : Bool} {name : String} {value : List Node}
    (h : ∀ n ∈ value, IsCode n) :
    IsCode (callAt depth (Plan.boundItems (depth + 1) isGlobal name value)) := by
  have hflag : ∀ n ∈ (if isGlobal then [nameAt (depth + 1) "global"] else []), IsCode n := by
    cases isGlobal with
    | true => exact List.forall_mem_singleton.2 (isCode_nameAt _ _)
    | false => exact List.forall_mem_nil _
  refine isCode_operation (List.forall_mem_append.2 ⟨hflag, ?_⟩)
  exact List.forall_mem_cons.2 ⟨isCode_nameAt _ _, h⟩

/-! ## Plans -/

namespace Plan.Delivers

variable {c : Context} {depth line : Nat} {cause : SyntaxCause} {P : Node → Prop}
  {openers ts : List Token}

theorem give {nodes : List Node} (h : ∀ n ∈ nodes, P n) : Delivers c P [] (.give nodes) ts :=
  ⟨h, fun _ => rfl⟩

theorem giveNone : Delivers c P [] (.give []) ts :=
  give (List.forall_mem_nil _)

theorem giveOne {n : Node} (h : P n) : Delivers c P [] (.give [n]) ts :=
  give (List.forall_mem_singleton.2 h)

theorem refuse (h : isOrdinary cause = true) :
    Delivers c P openers (.refuse depth line cause) ts :=
  ⟨line, cause, rfl, justified_of_isOrdinary h _ _ _⟩

theorem refuseAtEnd (h : isOrdinary cause = true) :
    Delivers c P openers (.refuseAtEnd depth cause) ts :=
  fun _ => ⟨c.lastLine, cause, rfl, justified_of_isOrdinary h _ _ _⟩

theorem unexpectedEnd : Delivers c P openers (.refuseAtEnd depth .unexpectedEnd) ts :=
  fun _ => ⟨c.lastLine, .unexpectedEnd, rfl, rfl⟩

/-- An opener that came along is the innermost one at the end. -/
theorem unclosed {opening : Token} {o : Opener} {text expected : String}
    (hopening : opening.shape = .opener o) (htext : opening.text = text) :
    Delivers c P (opening :: openers)
      (.refuse depth opening.line (.unclosed text expected)) [] := by
  refine ⟨opening.line, .unclosed text expected, rfl, rfl, fun stack => ?_⟩
  exact ⟨opening, openers ++ stack, o, rfl, hopening, htext, rfl⟩

theorem peek {atEnd : Plan} {next : Token → Plan} (hend : atEnd.Delivers c P openers [])
    (hnext : ∀ t rest, ts = t :: rest → (next t).Delivers c P openers (t :: rest)) :
    Delivers c P openers (.peek atEnd next) ts := by
  refine ⟨?_, ?_⟩
  · rintro rfl
    exact hend
  · rintro t rest rfl
    exact hnext t rest rfl

/-- A token is consumed that neither opens nor closes anything. -/
theorem shift {t : Token} {next : Plan} (ht : t.IsNeutral) (hnext : next.Delivers c P openers ts) :
    Delivers c P openers (.shift next) (t :: ts) := by
  rintro t' rest ⟨⟩
  simp only [Token.nestAll_neutral ht]
  exact hnext

theorem shiftOpener {t : Token} {next : Plan} {o : Opener} (ht : t.shape = .opener o)
    (hnext : next.Delivers c P (t :: openers) ts) :
    Delivers c P openers (.shift next) (t :: ts) := by
  rintro t' rest ⟨⟩
  simp only [Token.nestAll_opener ht]
  exact hnext

theorem shiftCloser {t opening : Token} {next : Plan} (ht : t.Closes opening)
    (hnext : next.Delivers c P openers ts) :
    Delivers c P (opening :: openers) (.shift next) (t :: ts) := by
  rintro t' rest ⟨⟩
  simp only [List.cons_append, Token.nestAll_closer ht]
  exact hnext

theorem deeper {opening : Token} {next : Plan} (hnext : next.Delivers c P openers ts) :
    Delivers c P openers (.deeper opening depth next) ts :=
  ⟨fun _ => hnext, fun _ => ⟨opening.line, .tooDeep c.maxDepth, rfl, trivial⟩⟩

/-- What is read closes the openers that come along with it, and the rest those outside. -/
theorem read {goal : Goal} {next : List Node → Nat → Plan} {outside : List Token}
    (hopeners : openers = goal.openers ++ outside) (hfits : goal.Fits ts)
    (hnext : ∀ nodes rest, (∀ n ∈ nodes, goal.Gives n) →
      (next nodes (ts.length - rest.length)).Delivers c P outside rest) :
    Delivers c P openers (.read goal depth next) ts := by
  subst hopeners
  have hscan : (fun stack => nestAll ts (goal.openers ++ outside ++ stack)) =
      fun stack => nestAll ts (goal.openers ++ (outside ++ stack)) := by
    simp only [List.append_assoc]
  unfold Delivers
  rw [hscan]
  refine ⟨hfits, ?_, ?_⟩
  · rintro f ⟨line, cause, hfault, hjustified⟩
    exact ⟨line, cause, hfault, hjustified.comp (outside ++ ·)⟩
  · rintro nodes rest ⟨hnodes, hrest⟩
    have hsame : (fun stack => nestAll ts (goal.openers ++ (outside ++ stack))) =
        fun stack => nestAll rest (outside ++ stack) := funext fun stack => hrest (outside ++ stack)
    rw [hsame]
    exact hnext nodes rest hnodes

theorem just {goal : Goal} (hfits : goal.Fits ts) :
    Delivers c goal.Gives goal.openers (.just goal depth) ts :=
  read (List.append_nil _).symm hfits fun _ _ h => give h

theorem sequence {first others : Goal} (hgives : first.Gives = others.Gives)
    (hopeners : first.openers = []) (hfits : first.Fits ts) (hothers : ∀ rest, others.Fits rest) :
    Delivers c others.Gives others.openers (.sequence first others depth) ts := by
  have hall : others.openers = first.openers ++ others.openers := by
    rw [hopeners, List.nil_append]
  refine read hall hfits fun nodes rest hnodes => ?_
  rw [hgives] at hnodes
  refine read (List.append_nil _).symm (hothers rest) fun _ _ hmore => ?_
  exact give (List.forall_mem_append.2 ⟨hnodes, hmore⟩)

/-! ### Lists -/

theorem word {t : Token} {change : Node → Node} (ht : t.shape = .word)
    (h : ∀ n, n.isLeaf = true → P (change n)) :
    Delivers c P [] (.word depth t change) (t :: ts) := by
  refine shift (.inl ht) ?_
  cases hatom : atom depth t with
  | ok n => exact giveOne (h n (isLeaf_atom hatom))
  | error cause =>
    cases atom_error hatom
    exact refuse rfl

theorem call {opening : Token} {items : List Node} (h : ∀ n ∈ items, IsCode n) :
    Delivers c IsCode [] (.call depth opening items) ts := by
  unfold Plan.call
  cases hitems : callItems items with
  | ok items' => exact giveOne (Node.isCode_unquoted (isCode_callItems hitems h) rfl)
  | error cause =>
    obtain rfl | ⟨n, rfl⟩ := callItems_error hitems
    · exact refuse rfl
    · exact refuse rfl

theorem listExpression {o : Opener} {opening : Token} (hopening : opening.shape = .opener o) :
    Delivers c IsCode [opening] (.listExpression depth o opening) ts := by
  refine deeper (read rfl hopening fun items rest hitems => ?_)
  refine peek (call hitems) fun arrow rest _ => ?_
  cases harrow : arrow.text == "=>" with
  | false => exact call hitems
  | true =>
    have hneutral : arrow.IsNeutral := .inl (by simp [Token.shape, beq_iff_eq.1 harrow])
    refine shift hneutral ?_
    unfold Plan.function
    cases hparams : paramNames items with
    | ok params => exact read rfl trivial fun _ _ hbody => giveOne (.function hbody)
    | error cause =>
      obtain ⟨n, rfl⟩ := paramNames_error hparams
      exact refuse rfl

theorem dataList {o : Opener} {opening : Token} (hopening : opening.shape = .opener o)
    (h : ∀ n, IsValue n → P n) : Delivers c P [opening] (.dataList depth o opening) ts := by
  refine deeper (read rfl hopening fun items rest hitems => giveOne (h _ ?_))
  exact Node.isValue_list.2 ⟨rfl, hitems⟩

theorem block {opening : Token} {next : List Node → Plan}
    (hopening : opening.shape = .opener .brace)
    (hnext : ∀ body rest, (∀ n ∈ body, IsCode n) → (next body).Delivers c P [] rest) :
    Delivers c P [opening] (.block depth opening next) ts :=
  deeper (read rfl hopening hnext)

theorem opened {opening : Token} {o : Opener} (hopening : opening.shape = .opener o) :
    Delivers c IsCode [opening] (.opened depth opening o) ts := by
  cases o with
  | paren | bracket => exact listExpression hopening
  | quotedParen | quotedBracket => exact dataList hopening fun _ h => h.code
  | brace => exact block hopening fun _ _ hbody => giveOne (isCode_operation hbody)

/-! ### Names and bindings -/

theorem named {t : Token} : Delivers c IsCode [] (.named depth t) ts := by
  unfold Plan.named
  cases hkeyword : t.keyword? with
  | some k => exact just (text_of_keyword? hkeyword)
  | none =>
    refine peek (giveOne (isCode_nameAt _ _)) fun next rest _ => ?_
    cases next.isCloser || next.text == "|" with
    | true => exact giveOne (isCode_nameAt _ _)
    | false => exact just trivial

theorem letEnd {keyword : Token} {single : Bool} {node : Node} (h : IsCode node) :
    Delivers c IsCode [] (.letEnd depth keyword single node) ts := by
  refine peek ?_ fun t rest _ => ?_
  · cases single with
    | true => exact refuse rfl
    | false => exact giveOne h
  · split
    · next hseparator => exact shift (.inr hseparator) (giveOne h)
    · split
      · exact refuse rfl
      · exact giveOne h

theorem letEquals {keyword : Token} {isGlobal : Bool} {name : String} :
    Delivers c IsCode [] (.letEquals depth keyword isGlobal name) ts := by
  refine peek (refuseAtEnd rfl) fun eq rest _ => ?_
  cases heq : eq.text == "=" with
  | false => exact refuse rfl
  | true =>
    have hneutral : eq.IsNeutral := .inl (by simp [Token.shape, beq_iff_eq.1 heq])
    refine shift hneutral (deeper (read rfl trivial fun value rest hvalue => ?_))
    exact letEnd (isCode_boundItems hvalue)

theorem letName {keyword : Token} {isGlobal : Bool} :
    Delivers c IsCode [] (.letName depth keyword isGlobal) ts := by
  refine peek (refuseAtEnd rfl) fun name rest _ => ?_
  cases hname : name.isName with
  | true => exact shift (.inl (Token.shape_of_isName hname)) letEquals
  | false => exact refuse rfl

theorem letForm {keyword : Token} : Delivers c IsCode [] (.letForm depth keyword) ts := by
  refine peek (refuseAtEnd rfl) fun t rest _ => ?_
  cases hglobal : t.text == "global" with
  | false => exact letName
  | true =>
    have hneutral : t.IsNeutral := .inl (by simp [Token.shape, beq_iff_eq.1 hglobal])
    refine shift hneutral (peek (refuseAtEnd rfl) fun next rest _ => ?_)
    cases next.text == "=" with
    | true => exact letEquals
    | false => exact letName

/-! ### Branches -/

theorem branches {keyword : Token} {next : List Node → Plan}
    (hkeyword : StartsBranches keyword.text)
    (hnext : ∀ bs rest, (∀ n ∈ bs, IsCode n) → (next bs).Delivers c P [] rest) :
    Delivers c P [] (.branches depth keyword next) ts := by
  refine deeper (read rfl hkeyword fun bs rest hbs => ?_)
  cases bs.isEmpty with
  | true => exact ⟨keyword.line, .noBranches keyword.text, rfl, hkeyword⟩
  | false => exact hnext bs rest hbs

theorem matchForm {keyword : Token} (hkeyword : StartsBranches keyword.text) :
    Delivers c IsCode [] (.matchForm depth keyword) ts := by
  refine deeper (peek (refuse rfl) fun _ _ _ => read rfl trivial fun value _ hvalue => ?_)
  refine branches hkeyword fun bs _ hbs => giveOne (isCode_operation ?_)
  exact List.forall_mem_append.2 ⟨hvalue, hbs⟩

theorem branch {keyword : Token} (hkeyword : StartsBranches keyword.text) :
    Delivers c IsCode [] (.branch depth keyword) ts := by
  refine deeper (read rfl trivial fun pattern _ hpattern => ?_)
  refine peek (refuseAtEnd rfl) fun arrow rest _ => ?_
  cases harrow : arrow.text == "=>" with
  | false => exact refuse rfl
  | true =>
    have hneutral : arrow.IsNeutral := .inl (by simp [Token.shape, beq_iff_eq.1 harrow])
    refine shift hneutral (peek (refuse rfl) fun _ _ _ => ?_)
    refine read rfl trivial fun body _ hbody => read rfl hkeyword fun bs _ hbs => give ?_
    refine List.forall_mem_cons.2 ⟨Node.isCode_unquoted ?_ rfl, hbs⟩
    exact List.forall_mem_append.2 ⟨hpattern, hbody⟩

end Plan.Delivers

/-! ## Rules -/

theorem reading_kept (c : Context) : reading.Kept c := by
  intro goal depth ts hfits
  show (goal.plan depth).Delivers c goal.Gives goal.openers ts
  cases goal with
  | program =>
    refine .peek .giveNone fun t rest _ => ?_
    split
    · next hseparator => exact .shift (.inr hseparator) (.just trivial)
    · exact .sequence rfl rfl trivial fun _ => trivial
  | statement =>
    refine .peek .unexpectedEnd fun t rest _ => ?_
    split
    · next hname => exact .shift (.inl (Token.shape_of_isName hname)) .named
    · exact .just trivial
  | element keywords =>
    refine .peek .unexpectedEnd fun t rest _ => ?_
    cases hshape : t.shape with
    | opener o => exact .shiftOpener hshape (.opened hshape)
    | closer _ | separator => exact .refuse rfl
    | word =>
      cases keywords with
      | false => exact .word hshape fun _ h => .leaf h
      | true =>
        cases hkeyword : t.keyword? with
        | none => exact .word hshape fun _ h => .leaf h
        | some k => exact .shift (.inl hshape) (.just (text_of_keyword? hkeyword))
  | keywordForm k keyword =>
    cases k with
    | letWord => exact .letForm
    | matchWord => exact .matchForm (.inl hfits)
    | condWord =>
      exact .branches (.inr hfits) fun _ _ hbs => .giveOne (isCode_operation hbs)
  | items o opening quoted first =>
    refine .peek (.unclosed hfits rfl) fun t rest _ => ?_
    cases hshape : t.shape with
    | closer k =>
      dsimp only
      split
      · next hk => exact .shiftCloser ⟨o, hfits, hk ▸ hshape⟩ .giveNone
      · exact .refuse rfl
    | opener _ | separator | word =>
      have hcloser : t.isCloser = false := by simp [Token.isCloser, hshape]
      cases quoted with
      | false => exact .sequence rfl rfl trivial fun _ => hfits
      | true =>
        refine .sequence rfl rfl ?_ fun _ => hfits
        rintro t' rest' ⟨⟩
        exact hcloser
  | dataElement =>
    refine .peek .unexpectedEnd fun t rest hts => ?_
    cases hshape : t.shape with
    | opener o =>
      cases o with
      | brace => exact .refuse rfl
      | _ => exact .shiftOpener hshape (.dataList hshape fun _ h => h)
    | separator => exact .refuse rfl
    | closer k =>
      have hcloser := hfits t rest hts
      simp [Token.isCloser, hshape] at hcloser
    | word => exact .word hshape fun _ h => Node.isValue_leaf (isLeaf_quote h)
  | functionBody opening =>
    refine .peek (.refuse rfl) fun t rest _ => ?_
    split
    · next hbrace => exact .shiftOpener hbrace (.block hbrace fun _ _ hbody => .give hbody)
    · exact .deeper (.just trivial)
  | statements opening =>
    have hsequence : ∀ rest, Plan.Delivers c (Goal.statements opening).Gives
        (Goal.statements opening).openers (.sequence .statement (.statements opening) depth) rest :=
      fun _ => .sequence rfl rfl trivial fun _ => hfits
    refine .peek (.unclosed hfits (text_of_opener hfits)) fun t rest _ => ?_
    cases hshape : t.shape with
    | separator => exact .shift (.inr hshape) (.just hfits)
    | closer k =>
      cases k with
      | brace => exact .shiftCloser ⟨.brace, hfits, hshape⟩ .giveNone
      | _ => exact hsequence _
    | _ => exact hsequence _
  | bareCall head =>
    exact .deeper (.read rfl trivial fun _ _ hargs => .giveOne (isCode_operation hargs))
  | bareArgs head =>
    refine .peek (.refuse rfl) fun t rest _ => ?_
    cases hshape : t.shape with
    | separator => exact .shift (.inr hshape) .giveNone
    | closer _ => exact .refuse rfl
    | _ => exact .sequence rfl rfl trivial fun _ => trivial
  | letValue keyword =>
    refine .peek (.refuse rfl) fun t rest _ => ?_
    split
    · next hname =>
      refine .shift (.inl (Token.shape_of_isName hname)) (.peek .named fun next rest _ => ?_)
      split
      · exact .giveOne (isCode_nameAt _ _)
      · exact .named
    · exact .just trivial
  | branchList keyword =>
    refine .peek ?_ fun t rest _ => ?_
    · exact ⟨keyword.line, .unclosedForm keyword.text, rfl, rfl, hfits⟩
    split
    · next hseparator => exact .shift (.inr hseparator) .giveNone
    split
    · next hbar =>
      have hneutral : t.IsNeutral := .inl (by simp [Token.shape, beq_iff_eq.1 hbar])
      exact .shift hneutral (.branch hfits)
    split
    · exact .giveNone
    · exact .refuse rfl
  | pattern =>
    refine .peek .unexpectedEnd fun t rest _ => ?_
    cases hshape : t.shape with
    | opener o =>
      cases o with
      | paren | bracket =>
        exact .shiftOpener hshape (.deeper (.read rfl hshape fun _ _ hitems => .call hitems))
      | _ => exact .just trivial
    | _ => exact .just trivial

/-! ## Whole programs -/

theorem delivers_of_runs {tokens : List Token} {maxDepth line : Nat} {r : Result}
    (h : Runs ⟨maxDepth, line⟩ (Goal.program.plan 0) tokens r) :
    Delivers IsCode (nestAll tokens) r :=
  h.post (reading_kept _) trivial

/-- The expressions of a source text are code. -/
theorem isCode_of_parse {source : String} {maxDepth : Nat} {nodes : List Node}
    (h : parse source maxDepth = .ok nodes) : ∀ n ∈ nodes, IsCode n := by
  obtain ⟨tokens, -, h⟩ := parse_eq_ok_iff.1 h
  exact (delivers_of_runs h).1

end ExprShell.Reader
