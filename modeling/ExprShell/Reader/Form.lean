/-
Reading of expressions, by recursive descent. Each function gets the depth at which its
expression stands, and every form that holds others reads them one level deeper, within the
bound of the context. The recursion is on the number of tokens left: every expression
consumes at least one.
-/
import ExprShell.Reader.Atom

namespace ExprShell.Reader

/-- The outcome as seen from further to the left. -/
def Parsed.widen {α : Type} {n m : Nat} (p : Parsed α n) (h : n ≤ m) : Parsed α m :=
  ⟨p.value, p.rest, Nat.lt_of_lt_of_le p.shorter h⟩

mutual

/-- An expression where a statement may stand: a form that a keyword starts, a lone name, a
bare call up to `;`, or any element. -/
def statement (c : Context) (depth : Nat) (ts : List Token) : Outcome Node ts.length :=
  match ts with
  | [] => .error (c.failAtEnd depth)
  | t :: rest =>
    match t.keyword? with
    | some k => keywordForm c depth k t rest
    | none =>
      if t.isName then
        if standsAlone rest then .ok ⟨nameAt depth t.text, rest, by simp⟩
        else bareCall c depth t rest
      else element c depth true (t :: rest)
termination_by 4 * ts.length + 1
decreasing_by
  all_goals
    simp only [List.length_cons] at *
    omega

/-- One element: an atom, a call, quoted data, a block or a function literal; with
`keywords`, also a form that a keyword starts. -/
def element (c : Context) (depth : Nat) (keywords : Bool) (ts : List Token) :
    Outcome Node ts.length :=
  match ts with
  | [] => .error (c.failAtEnd depth)
  | t :: rest =>
    match t.shape with
    | .opener .paren => listExpression c depth .paren t rest
    | .opener .bracket => listExpression c depth .bracket t rest
    | .opener .quotedParen => dataList c depth .quotedParen t rest
    | .opener .quotedBracket => dataList c depth .quotedBracket t rest
    | .opener .brace => do
      let ⟨body, after, h⟩ ← block c depth t rest
      return ⟨callAt depth (operatorAt (depth + 1) "do" :: body), after,
        by simp only [List.length_cons]; omega⟩
    | .closer _ | .separator => .error (c.failHere (.unexpected t.text) (t :: rest) depth)
    | .word =>
      match keywords, t.keyword? with
      | true, some k => keywordForm c depth k t rest
      | _, _ =>
        match atom depth t with
        | .ok n => .ok ⟨n, rest, by simp⟩
        | .error cause => .error (failAt t.line cause rest depth)
termination_by 4 * ts.length
decreasing_by
  all_goals
    simp only [List.length_cons] at *
    omega

/-- The form of a keyword that was just consumed. -/
def keywordForm (c : Context) (depth : Nat) (k : Keyword) (t : Token) (ts : List Token) :
    Outcome Node (ts.length + 1) :=
  match k with
  | .letWord => letForm c depth t ts
  | .matchWord => matchForm c depth t ts
  | .condWord => condForm c depth t ts
termination_by 4 * ts.length + 3
decreasing_by all_goals omega

/-- A call, or a function literal if an arrow follows; the opener was just consumed. -/
def listExpression (c : Context) (depth : Nat) (o : Opener) (opening : Token)
    (ts : List Token) : Outcome Node (ts.length + 1) := do
  let ⟨items, after, h⟩ ← delimited c depth o opening false ts
  match after, h with
  | arrow :: body, h =>
    have h : body.length + 1 < ts.length := h
    if arrow.text == "=>" then
      match paramNames items with
      | .error cause => throw (failAt opening.line cause body depth)
      | .ok params =>
        let ⟨nodes, final, h'⟩ ← functionBody c depth opening body
        return ⟨.function { depth := depth } params nodes, final, by omega⟩
    else
      match callItems items with
      | .error cause => throw (failAt opening.line cause (arrow :: body) depth)
      | .ok items =>
        return ⟨callAt depth items, arrow :: body, by simp only [List.length_cons]; omega⟩
  | [], _ =>
    match callItems items with
    | .error cause => throw (failAt opening.line cause [] depth)
    | .ok items => return ⟨callAt depth items, [], by simp⟩
termination_by 4 * ts.length + 3
decreasing_by all_goals omega

/-- Quoted data; the opener was just consumed. -/
def dataList (c : Context) (depth : Nat) (o : Opener) (opening : Token) (ts : List Token) :
    Outcome Node (ts.length + 1) := do
  let ⟨items, after, h⟩ ← delimited c depth o opening true ts
  return ⟨.list { depth := depth, quoted := true } items, after, by omega⟩
termination_by 4 * ts.length + 3
decreasing_by all_goals omega

/-- The elements up to the closer of an opener that was just consumed. -/
def delimited (c : Context) (depth : Nat) (o : Opener) (opening : Token) (quoted : Bool)
    (ts : List Token) : Outcome (List Node) ts.length := do
  let inner ← c.enter opening ts depth
  items c inner o opening quoted true ts
termination_by 4 * ts.length + 2
decreasing_by all_goals omega

/-- Elements up to a closer, which is consumed. The first one cannot be a form that a keyword
starts. -/
def items (c : Context) (depth : Nat) (o : Opener) (opening : Token) (quoted first : Bool)
    (ts : List Token) : Outcome (List Node) ts.length :=
  match ts with
  | [] => .error (failAt opening.line (.unclosed opening.text o.closer.text) [] depth)
  | t :: rest =>
    match t.shape with
    | .closer k =>
      if k = o.closer then .ok ⟨[], rest, by simp⟩
      else
        .error (c.failHere (.mismatched t.text opening.text opening.line o.closer.text)
          (t :: rest) depth)
    | _ => do
      let ⟨n, after, h⟩ ←
        if quoted then dataElement c depth (t :: rest)
        else element c depth (!first) (t :: rest)
      let ⟨ns, final, h'⟩ ← items c depth o opening quoted false after
      return ⟨n :: ns, final, by omega⟩
termination_by 4 * ts.length + 1
decreasing_by
  all_goals
    simp only [List.length_cons] at *
    omega

/-- One element of quoted data. -/
def dataElement (c : Context) (depth : Nat) (ts : List Token) : Outcome Node ts.length :=
  match ts with
  | [] => .error (c.failAtEnd depth)
  | t :: rest =>
    match t.shape with
    | .opener .brace | .separator =>
      .error (c.failHere (.unexpectedInData t.text) (t :: rest) depth)
    | .opener o => dataList c depth o t rest
    | _ =>
      match atom depth t with
      | .ok n => .ok ⟨n.quote, rest, by simp⟩
      | .error cause => .error (failAt t.line cause rest depth)
termination_by 4 * ts.length
decreasing_by
  all_goals
    simp only [List.length_cons] at *
    omega

/-- The body of a function literal: a block, or one element. -/
def functionBody (c : Context) (depth : Nat) (opening : Token) (ts : List Token) :
    Outcome (List Node) ts.length :=
  match ts with
  | [] => .error (failAt opening.line .missingFunctionBody [] depth)
  | t :: rest =>
    if t.shape = .opener .brace then do
      let ⟨body, after, h⟩ ← block c depth t rest
      return ⟨body, after, by simp only [List.length_cons]; omega⟩
    else do
      let inner ← c.enter opening (t :: rest) depth
      let ⟨n, after, h⟩ ← element c inner true (t :: rest)
      return ⟨[n], after, h⟩
termination_by 4 * ts.length + 1
decreasing_by
  all_goals
    simp only [List.length_cons] at *
    omega

/-- The statements of a block; the opener was just consumed. -/
def block (c : Context) (depth : Nat) (opening : Token) (ts : List Token) :
    Outcome (List Node) ts.length := do
  let inner ← c.enter opening ts depth
  statements c inner opening ts
termination_by 4 * ts.length + 3
decreasing_by all_goals omega

/-- Statements up to the closing brace, which is consumed. -/
def statements (c : Context) (depth : Nat) (opening : Token) (ts : List Token) :
    Outcome (List Node) ts.length :=
  match ts with
  | [] =>
    .error (failAt opening.line (.unclosed Opener.brace.text Closer.brace.text) [] depth)
  | t :: rest =>
    match t.shape with
    | .separator => do
      let ⟨ns, final, h⟩ ← statements c depth opening rest
      return ⟨ns, final, by simp only [List.length_cons]; omega⟩
    | .closer .brace => .ok ⟨[], rest, by simp⟩
    | _ => do
      let ⟨n, after, h⟩ ← statement c depth (t :: rest)
      let ⟨ns, final, h'⟩ ← statements c depth opening after
      return ⟨n :: ns, final, by omega⟩
termination_by 4 * ts.length + 2
decreasing_by
  all_goals
    simp only [List.length_cons] at *
    omega

/-- A call without parentheses, up to `;`; its head was just consumed. -/
def bareCall (c : Context) (depth : Nat) (head : Token) (ts : List Token) :
    Outcome Node (ts.length + 1) := do
  let inner ← c.enter head ts depth
  let ⟨args, after, h⟩ ← bareArgs c inner head ts
  return ⟨callAt depth (operatorAt (depth + 1) head.text :: args), after, by omega⟩
termination_by 4 * ts.length + 2
decreasing_by all_goals omega

/-- Arguments up to `;`, which is consumed. -/
def bareArgs (c : Context) (depth : Nat) (head : Token) (ts : List Token) :
    Outcome (List Node) ts.length :=
  match ts with
  | [] => .error (failAt head.line (.missingTerminator head.text) [] depth)
  | t :: rest =>
    match t.shape with
    | .separator => .ok ⟨[], rest, by simp⟩
    | .closer _ => .error (failAt head.line (.missingTerminator head.text) (t :: rest) depth)
    | _ => do
      let ⟨n, after, h⟩ ← element c depth false (t :: rest)
      let ⟨ns, final, h'⟩ ← bareArgs c depth head after
      return ⟨n :: ns, final, by omega⟩
termination_by 4 * ts.length + 1
decreasing_by
  all_goals
    simp only [List.length_cons] at *
    omega

/-- `let name = value`, or `let global name = value` for a constant; the keyword was just
consumed. -/
def letForm (c : Context) (depth : Nat) (keyword : Token) (ts : List Token) :
    Outcome Node (ts.length + 1) :=
  have h : (skipGlobal ts).2.length ≤ ts.length := length_skipGlobal_le ts
  match binding c depth keyword (skipGlobal ts).1 (skipGlobal ts).2 with
  | .ok p => .ok (p.widen (Nat.succ_le_succ h))
  | .error failure => .error failure
termination_by 4 * ts.length + 2
decreasing_by all_goals omega

/-- The rest of a binding, from its name on. A value of one token needs a `;` after it, unless
a closer ends the form that the binding stands in. -/
def binding (c : Context) (depth : Nat) (keyword : Token) (isGlobal : Bool)
    (ts : List Token) : Outcome Node (ts.length + 1) :=
  match ts with
  | [] => .error (c.failMissing .letName [] depth)
  | [name] =>
    if name.isName then .error (c.failMissing .letEquals [] depth)
    else .error (c.failMissing .letName [name] depth)
  | name :: eq :: afterEq =>
    if !name.isName then .error (c.failMissing .letName (name :: eq :: afterEq) depth)
    else if eq.text != "=" then .error (c.failMissing .letEquals (eq :: afterEq) depth)
    else do
      let inner ← c.enter keyword afterEq depth
      let ⟨value, after, h⟩ ← letValue c inner keyword afterEq
      let node := callAt depth (letItems (depth + 1) isGlobal name.text value)
      let single := after.length + 1 == afterEq.length
      match after, h with
      | [], _ =>
        if single then throw (failAt keyword.line .unterminatedLet [] depth)
        else return ⟨node, [], by simp⟩
      | t :: rest, h =>
        have h : rest.length + 1 < afterEq.length := h
        if t.shape = .separator then
          return ⟨node, rest, by simp only [List.length_cons]; omega⟩
        else if single && !(0 < depth && t.isCloser) then
          throw (failAt keyword.line .unterminatedLet (t :: rest) depth)
        else
          return ⟨node, t :: rest, by simp only [List.length_cons]; omega⟩
termination_by 4 * ts.length + 1
decreasing_by
  all_goals
    simp only [List.length_cons] at *
    omega

/-- The value of a binding: a name before `;` stands for itself, all else is a statement. -/
def letValue (c : Context) (depth : Nat) (keyword : Token) (ts : List Token) :
    Outcome Node ts.length :=
  match ts with
  | [] => .error (failAt keyword.line .missingLetValue [] depth)
  | t :: rest =>
    if t.isName && (rest.head?.any (·.shape == .separator)) then
      .ok ⟨nameAt depth t.text, rest, by simp⟩
    else statement c depth (t :: rest)
termination_by 4 * ts.length + 2
decreasing_by
  all_goals
    simp only [List.length_cons] at *
    omega

/-- `match value | pattern => body ... ;`; the keyword was just consumed. -/
def matchForm (c : Context) (depth : Nat) (keyword : Token) (ts : List Token) :
    Outcome Node (ts.length + 1) := do
  let inner ← c.enter keyword ts depth
  let ⟨value, after, h⟩ ← scrutinee c inner keyword ts
  let ⟨bs, final, h'⟩ ← branches c depth keyword after
  return ⟨callAt depth (operatorAt (depth + 1) "match" :: value :: bs), final, by omega⟩
termination_by 4 * ts.length + 2
decreasing_by all_goals omega

/-- The value that a `match` looks at. -/
def scrutinee (c : Context) (depth : Nat) (keyword : Token) (ts : List Token) :
    Outcome Node ts.length :=
  match ts with
  | [] => .error (failAt keyword.line .missingScrutinee [] depth)
  | t :: rest => element c depth false (t :: rest)
termination_by 4 * ts.length + 1
decreasing_by
  all_goals
    simp only [List.length_cons] at *
    omega

/-- `cond | test => body ... ;`; the keyword was just consumed. -/
def condForm (c : Context) (depth : Nat) (keyword : Token) (ts : List Token) :
    Outcome Node (ts.length + 1) := do
  let ⟨bs, final, h⟩ ← branches c depth keyword ts
  return ⟨callAt depth (operatorAt (depth + 1) "cond" :: bs), final, h⟩
termination_by 4 * ts.length + 2
decreasing_by all_goals omega

/-- The branches of a form, at least one, through the terminator. -/
def branches (c : Context) (depth : Nat) (keyword : Token) (ts : List Token) :
    Outcome (List Node) (ts.length + 1) := do
  let inner ← c.enter keyword ts depth
  let ⟨bs, final, h⟩ ← branchList c inner keyword ts
  match bs with
  | [] => throw (failAt keyword.line (.noBranches keyword.text) final depth)
  | b :: bs => return ⟨b :: bs, final, h⟩
termination_by 4 * ts.length + 1
decreasing_by all_goals omega

/-- Branches up to `;`, which is consumed, or, inside another form, up to its closer. -/
def branchList (c : Context) (depth : Nat) (keyword : Token) (ts : List Token) :
    Outcome (List Node) (ts.length + 1) :=
  match ts with
  | [] => .error (failAt keyword.line (.unclosedForm keyword.text) [] depth)
  | t :: rest =>
    if t.shape = .separator then
      .ok ⟨[], rest, by simp only [List.length_cons]; omega⟩
    else if t.text == "|" then do
      let inner ← c.enter keyword rest depth
      let ⟨p, afterPattern, h⟩ ← pattern c inner rest
      match afterPattern, h with
      | [], _ => throw (c.failMissing .branchArrow [] inner)
      | arrow :: afterArrow, h =>
        have h : afterArrow.length + 1 < rest.length := h
        if arrow.text == "=>" then
          let ⟨body, afterBody, h'⟩ ← branchBody c inner keyword afterArrow
          let ⟨bs, final, h''⟩ ← branchList c depth keyword afterBody
          return ⟨branchAt depth p body :: bs, final, by simp only [List.length_cons]; omega⟩
        else throw (c.failMissing .branchArrow (arrow :: afterArrow) inner)
    else if t.isCloser && 1 < depth then
      .ok ⟨[], t :: rest, by simp⟩
    else .error (c.failMissing (.branchOrEnd keyword.text) (t :: rest) depth)
termination_by 4 * ts.length
decreasing_by
  all_goals
    simp only [List.length_cons] at *
    omega

/-- The body of a branch. -/
def branchBody (c : Context) (depth : Nat) (keyword : Token) (ts : List Token) :
    Outcome Node ts.length :=
  match ts with
  | [] => .error (failAt keyword.line .missingBranchBody [] depth)
  | t :: rest => element c depth true (t :: rest)
termination_by 4 * ts.length + 1
decreasing_by
  all_goals
    simp only [List.length_cons] at *
    omega

/-- A pattern: an element in which the arrow after a list belongs to the branch. -/
def pattern (c : Context) (depth : Nat) (ts : List Token) : Outcome Node ts.length :=
  match ts with
  | [] => .error (c.failAtEnd depth)
  | t :: rest =>
    match t.shape with
    | .opener .paren => patternCall c depth .paren t rest
    | .opener .bracket => patternCall c depth .bracket t rest
    | _ => element c depth false (t :: rest)
termination_by 4 * ts.length + 1
decreasing_by
  all_goals
    simp only [List.length_cons] at *
    omega

/-- A pattern in the form of a call; the opener was just consumed. -/
def patternCall (c : Context) (depth : Nat) (o : Opener) (opening : Token)
    (ts : List Token) : Outcome Node (ts.length + 1) := do
  let ⟨items, after, h⟩ ← delimited c depth o opening false ts
  match callItems items with
  | .error cause => throw (failAt opening.line cause after depth)
  | .ok items => return ⟨callAt depth items, after, by omega⟩
termination_by 4 * ts.length + 3
decreasing_by all_goals omega

end

end ExprShell.Reader
