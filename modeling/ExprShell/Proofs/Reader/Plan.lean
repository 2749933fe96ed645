/-
The reader as rules. For each thing there is to read there is a plan: look at the next token,
consume it, go one level deeper, read something else, and at last give nodes or refuse. `Runs`
says what comes of a plan; the functions of the reader do what the rules say (`runs_iff`).

A property of all readings is shown by induction over the few ways in which a plan goes on, or
rule by rule, as a contract that each rule meets on the promises of the others (`Runs.post`).
-/
import ExprShell.Reader.Program

namespace ExprShell.Reader

/-! ## Plans -/

/-- What there is to read. The opener, head or keyword that was just consumed comes along. -/
inductive Goal where
  | program
  | statement
  | element (keywords : Bool)
  | keywordForm (k : Keyword) (keyword : Token)
  | items (o : Opener) (opening : Token) (quoted first : Bool)
  | dataElement
  | functionBody (opening : Token)
  | statements (opening : Token)
  | bareCall (head : Token)
  | bareArgs (head : Token)
  | letValue (keyword : Token)
  | branchList (keyword : Token)
  | pattern

/-- How something is read. -/
inductive Plan where
  /-- Is done and has read these nodes. -/
  | give (nodes : List Node)
  /-- Fails where it stands, with a depth and a line to report. -/
  | refuse (depth line : Nat) (cause : SyntaxCause)
  /-- Fails at the end of the input, which is reported on the last line. -/
  | refuseAtEnd (depth : Nat) (cause : SyntaxCause)
  /-- Looks at the next token, if there is one. -/
  | peek (atEnd : Plan) (next : Token → Plan)
  /-- Consumes the next token. -/
  | shift (next : Plan)
  /-- Goes one level deeper than a depth, if the bound allows it. -/
  | deeper (opening : Token) (depth : Nat) (next : Plan)
  /-- Reads something at a depth, and goes on with its nodes and the number of its tokens. -/
  | read (goal : Goal) (depth : Nat) (next : List Node → Nat → Plan)

namespace Plan

/-- Reads something else instead. -/
def just (goal : Goal) (depth : Nat) : Plan :=
  .read goal depth fun nodes _ => .give nodes

/-- A single word, as a node that is changed before it is given. -/
def word (depth : Nat) (t : Token) (change : Node → Node) : Plan :=
  .shift <|
    match atom depth t with
    | .ok n => .give [change n]
    | .error cause => .refuse depth t.line cause

def call (depth : Nat) (opening : Token) (items : List Node) : Plan :=
  match callItems items with
  | .ok items => .give [callAt depth items]
  | .error cause => .refuse depth opening.line cause

def delimited (depth : Nat) (o : Opener) (opening : Token) (quoted : Bool)
    (next : List Node → Plan) : Plan :=
  .deeper opening depth <|
    .read (.items o opening quoted true) (depth + 1) fun items _ => next items

def dataList (depth : Nat) (o : Opener) (opening : Token) : Plan :=
  delimited depth o opening true fun items =>
    .give [.list { depth := depth, quoted := true } items]

def function (depth : Nat) (opening : Token) (items : List Node) : Plan :=
  match paramNames items with
  | .ok params =>
    .read (.functionBody opening) depth fun nodes _ =>
      .give [.function { depth := depth } params nodes]
  | .error cause => .refuse depth opening.line cause

def listExpression (depth : Nat) (o : Opener) (opening : Token) : Plan :=
  delimited depth o opening false fun items =>
    .peek (call depth opening items) fun arrow =>
      if arrow.text == "=>" then .shift (function depth opening items)
      else call depth opening items

def block (depth : Nat) (opening : Token) (next : List Node → Plan) : Plan :=
  .deeper opening depth <| .read (.statements opening) (depth + 1) fun body _ => next body

/-- What an opener opens, outside quoted data. -/
def opened (depth : Nat) (opening : Token) : Opener → Plan
  | .paren => listExpression depth .paren opening
  | .bracket => listExpression depth .bracket opening
  | .quotedParen => dataList depth .quotedParen opening
  | .quotedBracket => dataList depth .quotedBracket opening
  | .brace =>
    block depth opening fun body => .give [callAt depth (operatorAt (depth + 1) "do" :: body)]

/-- A statement that starts with a name, which was just consumed. -/
def named (depth : Nat) (t : Token) : Plan :=
  match t.keyword? with
  | some k => just (.keywordForm k t) depth
  | none =>
    .peek (.give [nameAt depth t.text]) fun next =>
      if next.isCloser || next.text == "|" then .give [nameAt depth t.text]
      else just (.bareCall t) depth

/-- The end of a binding whose value was `single` or not. -/
def letEnd (depth : Nat) (keyword : Token) (single : Bool) (node : Node) : Plan :=
  .peek (if single then .refuse depth keyword.line .unterminatedLet else .give [node]) fun t =>
    if t.shape = .separator then .shift (.give [node])
    else if single && !(0 < depth && t.isCloser) then
      .refuse depth keyword.line .unterminatedLet
    else .give [node]

/-- The items of a binding whose value was read. -/
def boundItems (depth : Nat) (isGlobal : Bool) (name : String) (value : List Node) : List Node :=
  operatorAt depth "let" ::
    ((if isGlobal then [nameAt depth "global"] else []) ++ nameAt depth name :: value)

def letEquals (depth : Nat) (keyword : Token) (isGlobal : Bool) (name : String) : Plan :=
  .peek (.refuseAtEnd depth (.missing .letEquals none)) fun eq =>
    if eq.text == "=" then
      .shift <| .deeper keyword depth <|
        .read (.letValue keyword) (depth + 1) fun value count =>
          letEnd depth keyword (count == 1)
            (callAt depth (boundItems (depth + 1) isGlobal name value))
    else .refuse depth eq.line (.missing .letEquals (some eq.text))

def letName (depth : Nat) (keyword : Token) (isGlobal : Bool) : Plan :=
  .peek (.refuseAtEnd depth (.missing .letName none)) fun name =>
    if name.isName then .shift (letEquals depth keyword isGlobal name.text)
    else .refuse depth name.line (.missing .letName (some name.text))

def letForm (depth : Nat) (keyword : Token) : Plan :=
  .peek (.refuseAtEnd depth (.missing .letName none)) fun t =>
    if t.text == "global" then
      .shift <| .peek (.refuseAtEnd depth (.missing .letEquals none)) fun next =>
        if next.text == "=" then letEquals depth keyword false "global"
        else letName depth keyword true
    else letName depth keyword false

def branches (depth : Nat) (keyword : Token) (next : List Node → Plan) : Plan :=
  .deeper keyword depth <|
    .read (.branchList keyword) (depth + 1) fun bs _ =>
      if bs.isEmpty then .refuse depth keyword.line (.noBranches keyword.text) else next bs

def matchForm (depth : Nat) (keyword : Token) : Plan :=
  .deeper keyword depth <|
    .peek (.refuse (depth + 1) keyword.line .missingScrutinee) fun _ =>
      .read (.element false) (depth + 1) fun value _ =>
        branches depth keyword fun bs =>
          .give [callAt depth (operatorAt (depth + 1) "match" :: (value ++ bs))]

def condForm (depth : Nat) (keyword : Token) : Plan :=
  branches depth keyword fun bs =>
    .give [callAt depth (operatorAt (depth + 1) "cond" :: bs)]

/-- A branch whose bar was just consumed, and those after it. -/
def branch (depth : Nat) (keyword : Token) : Plan :=
  .deeper keyword depth <|
    .read .pattern (depth + 1) fun pattern _ =>
      .peek (.refuseAtEnd (depth + 1) (.missing .branchArrow none)) fun arrow =>
        if arrow.text == "=>" then
          .shift <| .peek (.refuse (depth + 1) keyword.line .missingBranchBody) fun _ =>
            .read (.element true) (depth + 1) fun body _ =>
              .read (.branchList keyword) depth fun bs _ =>
                .give (.list { label := "branch", depth := depth } (pattern ++ body) :: bs)
        else .refuse (depth + 1) arrow.line (.missing .branchArrow (some arrow.text))

/-- Reads something, and then the rest of a sequence of which it is the first. -/
def sequence (first : Goal) (others : Goal) (depth : Nat) : Plan :=
  .read first depth fun n _ => .read others depth fun ns _ => .give (n ++ ns)

end Plan

/-- How each thing is read at a depth. -/
def Goal.plan (goal : Goal) (depth : Nat) : Plan :=
  match goal with
  | .program =>
    .peek (.give []) fun t =>
      if t.shape = .separator then .shift (.just .program depth)
      else .sequence .statement .program depth
  | .statement =>
    .peek (.refuseAtEnd depth .unexpectedEnd) fun t =>
      if t.isName then .shift (.named depth t) else .just (.element true) depth
  | .element keywords =>
    .peek (.refuseAtEnd depth .unexpectedEnd) fun t =>
      match t.shape with
      | .opener o => .shift (.opened depth t o)
      | .closer _ | .separator => .refuse depth t.line (.unexpected t.text)
      | .word =>
        match keywords, t.keyword? with
        | true, some k => .shift (.just (.keywordForm k t) depth)
        | _, _ => .word depth t id
  | .keywordForm .letWord keyword => .letForm depth keyword
  | .keywordForm .matchWord keyword => .matchForm depth keyword
  | .keywordForm .condWord keyword => .condForm depth keyword
  | .items o opening quoted first =>
    .peek (.refuse depth opening.line (.unclosed opening.text o.closer.text)) fun t =>
      match t.shape with
      | .closer k =>
        if k = o.closer then .shift (.give [])
        else .refuse depth t.line (.mismatched t.text opening.text opening.line o.closer.text)
      | _ =>
        .sequence (if quoted then .dataElement else .element (!first))
          (.items o opening quoted false) depth
  | .dataElement =>
    .peek (.refuseAtEnd depth .unexpectedEnd) fun t =>
      match t.shape with
      | .opener .brace | .separator => .refuse depth t.line (.unexpectedInData t.text)
      | .opener o => .shift (.dataList depth o t)
      | _ => .word depth t Node.quote
  | .functionBody opening =>
    .peek (.refuse depth opening.line .missingFunctionBody) fun t =>
      if t.shape = .opener .brace then .shift (.block depth t .give)
      else .deeper opening depth (.just (.element true) (depth + 1))
  | .statements opening =>
    .peek (.refuse depth opening.line (.unclosed Opener.brace.text Closer.brace.text)) fun t =>
      match t.shape with
      | .separator => .shift (.just (.statements opening) depth)
      | .closer .brace => .shift (.give [])
      | _ => .sequence .statement (.statements opening) depth
  | .bareCall head =>
    .deeper head depth <|
      .read (.bareArgs head) (depth + 1) fun args _ =>
        .give [callAt depth (operatorAt (depth + 1) head.text :: args)]
  | .bareArgs head =>
    .peek (.refuse depth head.line (.missingTerminator head.text)) fun t =>
      match t.shape with
      | .separator => .shift (.give [])
      | .closer _ => .refuse depth head.line (.missingTerminator head.text)
      | _ => .sequence (.element false) (.bareArgs head) depth
  | .letValue keyword =>
    .peek (.refuse depth keyword.line .missingLetValue) fun t =>
      if t.isName then
        .shift <| .peek (.named depth t) fun next =>
          if next.shape = .separator then .give [nameAt depth t.text] else .named depth t
      else .just .statement depth
  | .branchList keyword =>
    .peek (.refuse depth keyword.line (.unclosedForm keyword.text)) fun t =>
      if t.shape = .separator then .shift (.give [])
      else if t.text == "|" then .shift (.branch depth keyword)
      else if t.isCloser && 1 < depth then .give []
      else .refuse depth t.line (.missing (.branchOrEnd keyword.text) (some t.text))
  | .pattern =>
    .peek (.refuseAtEnd depth .unexpectedEnd) fun t =>
      match t.shape with
      | .opener .paren => .shift (.delimited depth .paren t false (.call depth t))
      | .opener .bracket => .shift (.delimited depth .bracket t false (.call depth t))
      | _ => .just (.element false) depth

/-! ## Causes of refusal -/

theorem atom_error {depth : Nat} {t : Token} {cause : SyntaxCause}
    (h : atom depth t = .error cause) : cause = .outOfRange t.text := by
  unfold atom at h
  repeat' split at h
  all_goals cases h
  rfl

theorem callItems_error {items : List Node} {cause : SyntaxCause}
    (h : callItems items = .error cause) : cause = .emptyCall ∨ ∃ n, cause = .badHead n := by
  unfold callItems at h
  repeat' split at h
  all_goals cases h
  · exact .inl rfl
  all_goals exact .inr ⟨_, rfl⟩

theorem paramNames_error {items : List Node} {cause : SyntaxCause}
    (h : paramNames items = .error cause) : ∃ n, cause = .badParameter n := by
  induction items with
  | nil => cases h
  | cons n rest ih =>
    unfold paramNames at h
    split at h
    · split at h
      · cases h
        exact ⟨_, rfl⟩
      · cases hrest : paramNames rest with
        | ok names =>
          rw [hrest] at h
          cases h
        | error cause' =>
          rw [hrest] at h
          cases h
          exact ih hrest
    · cases h
      exact ⟨n, rfl⟩

/-! ## Runs -/

/-- The nodes that were read and the tokens left over, or a failure. -/
abbrev Result :=
  Except Failure (List Node × List Token)

/-- What comes of a plan. -/
inductive Runs (c : Context) : Plan → List Token → Result → Prop where
  | give {nodes : List Node} {ts : List Token} : Runs c (.give nodes) ts (.ok (nodes, ts))
  | refuse {depth line : Nat} {cause : SyntaxCause} {ts : List Token} :
    Runs c (.refuse depth line cause) ts (.error (failAt line cause ts depth))
  | refuseAtEnd {depth : Nat} {cause : SyntaxCause} :
    Runs c (.refuseAtEnd depth cause) [] (.error (failAt c.lastLine cause [] depth))
  | peekEnd {atEnd : Plan} {next : Token → Plan} {r : Result} :
    Runs c atEnd [] r → Runs c (.peek atEnd next) [] r
  | peek {atEnd : Plan} {next : Token → Plan} {t : Token} {ts : List Token} {r : Result} :
    Runs c (next t) (t :: ts) r → Runs c (.peek atEnd next) (t :: ts) r
  | shift {next : Plan} {t : Token} {ts : List Token} {r : Result} :
    Runs c next ts r → Runs c (.shift next) (t :: ts) r
  | deeper {opening : Token} {depth : Nat} {next : Plan} {ts : List Token} {r : Result} :
    depth < c.maxDepth → Runs c next ts r → Runs c (.deeper opening depth next) ts r
  | tooDeep {opening : Token} {depth : Nat} {next : Plan} {ts : List Token} :
    ¬ depth < c.maxDepth →
      Runs c (.deeper opening depth next) ts
        (.error (failAt opening.line (.tooDeep c.maxDepth) ts depth))
  | readOk {goal : Goal} {depth : Nat} {next : List Node → Nat → Plan} {nodes : List Node}
    {ts rest : List Token} {r : Result} :
    Runs c (goal.plan depth) ts (.ok (nodes, rest)) →
      Runs c (next nodes (ts.length - rest.length)) rest r → Runs c (.read goal depth next) ts r
  | readError {goal : Goal} {depth : Nat} {next : List Node → Nat → Plan} {ts : List Token}
    {f : Failure} :
    Runs c (goal.plan depth) ts (.error f) → Runs c (.read goal depth next) ts (.error f)

/-- A plan has one outcome at most. -/
theorem Runs.unique {c : Context} {p : Plan} {ts : List Token} {r r' : Result}
    (h : Runs c p ts r) (h' : Runs c p ts r') : r = r' := by
  induction h generalizing r' with
  | give => cases h' with | give => rfl
  | refuse => cases h' with | refuse => rfl
  | refuseAtEnd => cases h' with | refuseAtEnd => rfl
  | peekEnd _ ih => cases h' with | peekEnd h' => exact ih h'
  | peek _ ih => cases h' with | peek h' => exact ih h'
  | shift _ ih => cases h' with | shift h' => exact ih h'
  | deeper hdepth _ ih =>
    cases h' with
    | deeper _ h' => exact ih h'
    | tooDeep hdepth' => exact absurd hdepth hdepth'
  | tooDeep hdepth =>
    cases h' with
    | deeper hdepth' _ => exact absurd hdepth' hdepth
    | tooDeep _ => rfl
  | readOk _ _ ih ihnext =>
    cases h' with
    | readOk h' hnext =>
      cases ih h'
      exact ihnext hnext
    | readError h' => cases ih h'
  | readError _ ih =>
    cases h' with
    | readOk h' _ => cases ih h'
    | readError h' =>
      cases ih h'
      rfl

/-! ## Contracts -/

/-- What is asked where something is read, and what is promised of the outcome. -/
structure Contract where
  pre : Goal → Nat → List Token → Prop
  post : Goal → Nat → List Token → Result → Prop

/-- On these tokens a plan comes to a result with a property, if all that it reads keeps to a
contract. -/
def Plan.Meets (c : Context) (k : Contract) (post : Result → Prop) : Plan → List Token → Prop
  | .give nodes, ts => post (.ok (nodes, ts))
  | .refuse depth line cause, ts => post (.error (failAt line cause ts depth))
  | .refuseAtEnd depth cause, ts => ts = [] → post (.error (failAt c.lastLine cause [] depth))
  | .peek atEnd next, ts =>
    (ts = [] → atEnd.Meets c k post []) ∧
      ∀ t rest, ts = t :: rest → (next t).Meets c k post (t :: rest)
  | .shift next, ts => ∀ t rest, ts = t :: rest → next.Meets c k post rest
  | .deeper opening depth next, ts =>
    (depth < c.maxDepth → next.Meets c k post ts) ∧
      (¬ depth < c.maxDepth → post (.error (failAt opening.line (.tooDeep c.maxDepth) ts depth)))
  | .read goal depth next, ts =>
    k.pre goal depth ts ∧ (∀ f, k.post goal depth ts (.error f) → post (.error f)) ∧
      ∀ nodes rest, k.post goal depth ts (.ok (nodes, rest)) →
        (next nodes (ts.length - rest.length)).Meets c k post rest

/-- Each rule meets its part of the contract. -/
def Contract.Kept (k : Contract) (c : Context) : Prop :=
  ∀ goal depth ts, k.pre goal depth ts →
    (goal.plan depth).Meets c k (k.post goal depth ts) ts

theorem Runs.of_meets {c : Context} {k : Contract} (hk : k.Kept c) {p : Plan} {ts : List Token}
    {r : Result} (h : Runs c p ts r) {post : Result → Prop} (hp : p.Meets c k post ts) :
    post r := by
  induction h generalizing post with
  | give => exact hp
  | refuse => exact hp
  | refuseAtEnd => exact hp rfl
  | peekEnd _ ih => exact ih (hp.1 rfl)
  | peek _ ih => exact ih (hp.2 _ _ rfl)
  | shift _ ih => exact ih (hp _ _ rfl)
  | deeper hdepth _ ih => exact ih (hp.1 hdepth)
  | tooDeep hdepth => exact hp.2 hdepth
  | readOk _ _ ih ihnext =>
    obtain ⟨hpre, -, hok⟩ := hp
    exact ihnext (hok _ _ (ih (hk _ _ _ hpre)))
  | readError _ ih =>
    obtain ⟨hpre, herror, -⟩ := hp
    exact herror _ (ih (hk _ _ _ hpre))

/-- A contract that the rules keep is kept by every reading. -/
theorem Runs.post {c : Context} {k : Contract} (hk : k.Kept c) {goal : Goal} {depth : Nat}
    {ts : List Token} {r : Result} (h : Runs c (goal.plan depth) ts r)
    (hpre : k.pre goal depth ts) : k.post goal depth ts r :=
  h.of_meets hk (hk goal depth ts hpre)

end ExprShell.Reader
