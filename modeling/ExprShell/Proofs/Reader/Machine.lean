/-
The reader as a machine over a sequence of tokens: a position that tokens are fetched at without a
check, a nesting counter that forms raise and lower again, and texts that are cut at byte offsets.
The machine does not see lists of tokens left over or depths handed down. A fetch past the end, a
cut that is out of range and a position that went back put it outside.

Each rule has code (`Goal.code`), and what comes of code is a relation (`Ends`) with one outcome at
most (`Ends.unique`).
-/
import ExprShell.Proofs.Reader.Plan

namespace ExprShell.Reader

/-! ## Texts in bytes -/

/-- The number of bytes that characters take. -/
def byteSize : List Char → Nat
  | [] => 0
  | c :: cs => c.utf8Size + byteSize cs

/-- The characters of the first bytes, and those after them. The bytes have to end where a
character does. -/
def splitBytes? : Nat → List Char → Option (List Char × List Char)
  | 0, cs => some ([], cs)
  | _ + 1, [] => none
  | count + 1, c :: cs =>
    if c.utf8Size ≤ count + 1 then
      (splitBytes? (count + 1 - c.utf8Size) cs).map fun (taken, rest) => (c :: taken, rest)
    else none

/-- The part of a text between two byte offsets, if they are in order, in the text and between
characters. -/
def cut? (text : String) (first last : Nat) : Option String :=
  if first ≤ last then do
    let (_, rest) ← splitBytes? first text.toList
    let (part, _) ← splitBytes? (last - first) rest
    some (String.ofList part)
  else none

theorem byteSize_append (cs more : List Char) :
    byteSize (cs ++ more) = byteSize cs + byteSize more := by
  induction cs with
  | nil => simp [byteSize]
  | cons c cs ih => simp [byteSize, ih, Nat.add_assoc]

theorem splitBytes?_append (cs rest : List Char) :
    splitBytes? (byteSize cs) (cs ++ rest) = some (cs, rest) := by
  induction cs with
  | nil => simp [byteSize, splitBytes?]
  | cons c cs ih =>
    have hpos := c.utf8Size_pos
    obtain ⟨count, hcount⟩ : ∃ count, byteSize (c :: cs) = count + 1 := by
      refine ⟨byteSize (c :: cs) - 1, ?_⟩
      simp only [byteSize]
      omega
    have hle : c.utf8Size ≤ count + 1 := by
      rw [← hcount, byteSize]
      omega
    have hleft : count + 1 - c.utf8Size = byteSize cs := by
      rw [← hcount, byteSize]
      omega
    rw [hcount, List.cons_append, splitBytes?, if_pos hle, hleft, ih]
    rfl

/-- A part that starts after one part of a text and ends before another can be cut out. -/
theorem cut?_eq_some {text : String} {part : List Char} {first last : Nat}
    (before after : List Char) (htext : text.toList = before ++ (part ++ after)) (hfirst : first = byteSize before)
    (hlast : last = byteSize before + byteSize part) :
    cut? text first last = some (String.ofList part) := by
  subst hfirst hlast
  have hle : byteSize before ≤ byteSize before + byteSize part := Nat.le_add_right _ _
  simp [cut?, hle, htext, splitBytes?_append]

/-! ## Code -/

/-- What the machine does. -/
inductive Code where
  /-- Is done and has read these nodes. -/
  | give (nodes : List Node)
  /-- Fails, with a line to report. -/
  | fail (line : Nat) (cause : SyntaxCause)
  /-- Fails, and reports the line of the last token. -/
  | failAtEnd (cause : SyntaxCause)
  /-- Looks at the token at the position, if there is one. -/
  | peek (atEnd : Code) (next : Token → Code)
  /-- Fetches the token at the position, which is not checked, and moves on by one. -/
  | advance (next : Code)
  /-- Cuts a part out of a text, at byte offsets that are not checked. -/
  | cut (text : String) (first last : Nat) (next : String → Code)
  /-- Raises the nesting counter, if the bound allows it. -/
  | enter (opening : Token) (next : Code)
  /-- Lowers the nesting counter. -/
  | leave (next : Code)
  /-- Looks at the nesting counter. -/
  | level (next : Nat → Code)
  /-- Reads something, and goes on with its nodes and the distance that the position moved. -/
  | call (goal : Goal) (next : List Node → Nat → Code)

namespace Code

/-- Reads something else instead. -/
def just (goal : Goal) : Code :=
  .call goal fun nodes _ => .give nodes

/-- A single word, which was just fetched, as a node that is changed before it is given. -/
def atom (t : Token) (change : Node → Node) : Code :=
  .level fun depth =>
    if t.isNumber then
      match Number.ofLiteral? t.text with
      | some n => .give [change (.number { depth := depth } n)]
      | none => .fail t.line (.outOfRange t.text)
    else if t.isString then
      .cut t.text 1 (byteSize t.text.toList - 1) fun part =>
        .give [change (.string { depth := depth } part)]
    else if t.text == "true" then .give [change (.boolean { depth := depth } true)]
    else if t.text == "false" then .give [change (.boolean { depth := depth } false)]
    else if t.isEscape then
      .cut t.text 1 (byteSize t.text.toList) fun part =>
        .give [change (.identifier { depth := depth, quoted := true } part)]
    else .give [change (nameAt depth t.text)]

def word (t : Token) (change : Node → Node) : Code :=
  .advance (atom t change)

def callOf (opening : Token) (items : List Node) : Code :=
  .level fun depth =>
    match callItems items with
    | .ok items => .give [callAt depth items]
    | .error cause => .fail opening.line cause

def delimited (o : Opener) (opening : Token) (quoted : Bool) (next : List Node → Code) : Code :=
  .enter opening <| .call (.items o opening quoted true) fun items _ => .leave (next items)

def dataList (o : Opener) (opening : Token) : Code :=
  delimited o opening true fun items =>
    .level fun depth => .give [.list { depth := depth, quoted := true } items]

def function (opening : Token) (items : List Node) : Code :=
  match paramNames items with
  | .ok params =>
    .call (.functionBody opening) fun nodes _ =>
      .level fun depth => .give [.function { depth := depth } params nodes]
  | .error cause => .fail opening.line cause

def listExpression (o : Opener) (opening : Token) : Code :=
  delimited o opening false fun items =>
    .peek (callOf opening items) fun arrow =>
      if arrow.text == "=>" then .advance (function opening items) else callOf opening items

def block (opening : Token) (next : List Node → Code) : Code :=
  .enter opening <| .call (.statements opening) fun body _ => .leave (next body)

def opened (opening : Token) : Opener → Code
  | .paren => listExpression .paren opening
  | .bracket => listExpression .bracket opening
  | .quotedParen => dataList .quotedParen opening
  | .quotedBracket => dataList .quotedBracket opening
  | .brace =>
    block opening fun body =>
      .level fun depth => .give [callAt depth (operatorAt (depth + 1) "do" :: body)]

/-- A name on its own. -/
def lone (t : Token) : Code :=
  .level fun depth => .give [nameAt depth t.text]

def named (t : Token) : Code :=
  match t.keyword? with
  | some k => just (.keywordForm k t)
  | none =>
    .peek (lone t) fun next =>
      if next.isCloser || next.text == "|" then lone t else just (.bareCall t)

def letEnd (keyword : Token) (single : Bool) (node : Node) : Code :=
  .peek (if single then .fail keyword.line .unterminatedLet else .give [node]) fun t =>
    if t.shape = .separator then .advance (.give [node])
    else
      .level fun depth =>
        if single && !(0 < depth && t.isCloser) then .fail keyword.line .unterminatedLet
        else .give [node]

def letEquals (keyword : Token) (isGlobal : Bool) (name : String) : Code :=
  .peek (.failAtEnd (.missing .letEquals none)) fun eq =>
    if eq.text == "=" then
      .advance <| .enter keyword <|
        .call (.letValue keyword) fun value count =>
          .leave <| .level fun depth =>
            letEnd keyword (count == 1)
              (callAt depth (Plan.boundItems (depth + 1) isGlobal name value))
    else .fail eq.line (.missing .letEquals (some eq.text))

def letName (keyword : Token) (isGlobal : Bool) : Code :=
  .peek (.failAtEnd (.missing .letName none)) fun name =>
    if name.isName then .advance (letEquals keyword isGlobal name.text)
    else .fail name.line (.missing .letName (some name.text))

def letForm (keyword : Token) : Code :=
  .peek (.failAtEnd (.missing .letName none)) fun t =>
    if t.text == "global" then
      .advance <| .peek (.failAtEnd (.missing .letEquals none)) fun next =>
        if next.text == "=" then letEquals keyword false "global" else letName keyword true
    else letName keyword false

def branches (keyword : Token) (next : List Node → Code) : Code :=
  .enter keyword <| .call (.branchList keyword) fun bs _ =>
    .leave (if bs.isEmpty then .fail keyword.line (.noBranches keyword.text) else next bs)

def matchForm (keyword : Token) : Code :=
  .enter keyword <| .peek (.fail keyword.line .missingScrutinee) fun _ =>
    .call (.element false) fun value _ =>
      .leave <| branches keyword fun bs =>
        .level fun depth =>
          .give [callAt depth (operatorAt (depth + 1) "match" :: (value ++ bs))]

def condForm (keyword : Token) : Code :=
  branches keyword fun bs =>
    .level fun depth => .give [callAt depth (operatorAt (depth + 1) "cond" :: bs)]

def branch (keyword : Token) : Code :=
  .enter keyword <| .call .pattern fun pattern _ =>
    .peek (.failAtEnd (.missing .branchArrow none)) fun arrow =>
      if arrow.text == "=>" then
        .advance <| .peek (.fail keyword.line .missingBranchBody) fun _ =>
          .call (.element true) fun body _ =>
            .leave <| .call (.branchList keyword) fun bs _ =>
              .level fun depth =>
                .give (.list { label := "branch", depth := depth } (pattern ++ body) :: bs)
      else .fail arrow.line (.missing .branchArrow (some arrow.text))

def sequence (first others : Goal) : Code :=
  .call first fun n _ => .call others fun ns _ => .give (n ++ ns)

end Code

/-- How the machine reads each thing. -/
def Goal.code : Goal → Code
  | .program =>
    .peek (.give []) fun t =>
      if t.shape = .separator then .advance (.just .program) else .sequence .statement .program
  | .statement =>
    .peek (.failAtEnd .unexpectedEnd) fun t =>
      if t.isName then .advance (.named t) else .just (.element true)
  | .element keywords =>
    .peek (.failAtEnd .unexpectedEnd) fun t =>
      match t.shape with
      | .opener o => .advance (.opened t o)
      | .closer _ | .separator => .fail t.line (.unexpected t.text)
      | .word =>
        match keywords, t.keyword? with
        | true, some k => .advance (.just (.keywordForm k t))
        | _, _ => .word t id
  | .keywordForm .letWord keyword => .letForm keyword
  | .keywordForm .matchWord keyword => .matchForm keyword
  | .keywordForm .condWord keyword => .condForm keyword
  | .items o opening quoted first =>
    .peek (.fail opening.line (.unclosed opening.text o.closer.text)) fun t =>
      match t.shape with
      | .closer k =>
        if k = o.closer then .advance (.give [])
        else .fail t.line (.mismatched t.text opening.text opening.line o.closer.text)
      | _ =>
        .sequence (if quoted then .dataElement else .element (!first))
          (.items o opening quoted false)
  | .dataElement =>
    .peek (.failAtEnd .unexpectedEnd) fun t =>
      match t.shape with
      | .opener .brace | .separator => .fail t.line (.unexpectedInData t.text)
      | .opener o => .advance (.dataList o t)
      | _ => .word t Node.quote
  | .functionBody opening =>
    .peek (.fail opening.line .missingFunctionBody) fun t =>
      if t.shape = .opener .brace then .advance (.block t .give)
      else .enter opening <| .call (.element true) fun nodes _ => .leave (.give nodes)
  | .statements opening =>
    .peek (.fail opening.line (.unclosed Opener.brace.text Closer.brace.text)) fun t =>
      match t.shape with
      | .separator => .advance (.just (.statements opening))
      | .closer .brace => .advance (.give [])
      | _ => .sequence .statement (.statements opening)
  | .bareCall head =>
    .enter head <| .call (.bareArgs head) fun args _ =>
      .leave <| .level fun depth =>
        .give [callAt depth (operatorAt (depth + 1) head.text :: args)]
  | .bareArgs head =>
    .peek (.fail head.line (.missingTerminator head.text)) fun t =>
      match t.shape with
      | .separator => .advance (.give [])
      | .closer _ => .fail head.line (.missingTerminator head.text)
      | _ => .sequence (.element false) (.bareArgs head)
  | .letValue keyword =>
    .peek (.fail keyword.line .missingLetValue) fun t =>
      if t.isName then
        .advance <| .peek (.named t) fun next =>
          if next.shape = .separator then .lone t else .named t
      else .just .statement
  | .branchList keyword =>
    .peek (.fail keyword.line (.unclosedForm keyword.text)) fun t =>
      if t.shape = .separator then .advance (.give [])
      else if t.text == "|" then .advance (.branch keyword)
      else
        .level fun depth =>
          if t.isCloser && 1 < depth then .give []
          else .fail t.line (.missing (.branchOrEnd keyword.text) (some t.text))
  | .pattern =>
    .peek (.failAtEnd .unexpectedEnd) fun t =>
      match t.shape with
      | .opener .paren => .advance (.delimited .paren t false (.callOf t))
      | .opener .bracket => .advance (.delimited .bracket t false (.callOf t))
      | _ => .just (.element false)

/-! ## Execution -/

/-- What changes while the machine reads. -/
structure Cursor where
  position : Nat
  /-- The nesting counter. -/
  depth : Nat
  /-- The highest value that the counter had. -/
  peak : Nat

namespace Cursor

def fresh : Cursor :=
  ⟨0, 0, 0⟩

def advanced (k : Cursor) : Cursor :=
  { k with position := k.position + 1 }

def entered (k : Cursor) : Cursor :=
  { k with depth := k.depth + 1, peak := max k.peak (k.depth + 1) }

def left (k : Cursor) : Cursor :=
  { k with depth := k.depth - 1 }

end Cursor

/-- Why the machine stops without nodes. -/
inductive Stop where
  | fault (f : Fault)
  /-- It used a position or an offset that was out of range. -/
  | outside

/-- What comes of code from a cursor. Code that does not come to an end has no outcome. -/
inductive Ends (tokens : List Token) (maxDepth : Nat) :
    Code → Cursor → Except Stop (List Node) → Cursor → Prop where
  | give {nodes : List Node} {k : Cursor} : Ends tokens maxDepth (.give nodes) k (.ok nodes) k
  | fail {line : Nat} {cause : SyntaxCause} {k : Cursor} :
    Ends tokens maxDepth (.fail line cause) k (.error (.fault (.syntactic line cause))) k
  | failAtEnd {cause : SyntaxCause} {k : Cursor} :
    Ends tokens maxDepth (.failAtEnd cause) k
      (.error (.fault (.syntactic (lastLine tokens) cause))) k
  | peekEnd {atEnd : Code} {next : Token → Code} {k k' : Cursor} {r : Except Stop (List Node)} :
    tokens[k.position]? = none → Ends tokens maxDepth atEnd k r k' →
      Ends tokens maxDepth (.peek atEnd next) k r k'
  | peek {atEnd : Code} {next : Token → Code} {t : Token} {k k' : Cursor}
    {r : Except Stop (List Node)} :
    tokens[k.position]? = some t → Ends tokens maxDepth (next t) k r k' →
      Ends tokens maxDepth (.peek atEnd next) k r k'
  | advance {next : Code} {k k' : Cursor} {r : Except Stop (List Node)} :
    k.position < tokens.length → Ends tokens maxDepth next k.advanced r k' →
      Ends tokens maxDepth (.advance next) k r k'
  | advanceOutside {next : Code} {k : Cursor} :
    ¬ k.position < tokens.length → Ends tokens maxDepth (.advance next) k (.error .outside) k
  | cut {text part : String} {first last : Nat} {next : String → Code} {k k' : Cursor}
    {r : Except Stop (List Node)} :
    cut? text first last = some part → Ends tokens maxDepth (next part) k r k' →
      Ends tokens maxDepth (.cut text first last next) k r k'
  | cutOutside {text : String} {first last : Nat} {next : String → Code} {k : Cursor} :
    cut? text first last = none →
      Ends tokens maxDepth (.cut text first last next) k (.error .outside) k
  | enter {opening : Token} {next : Code} {k k' : Cursor} {r : Except Stop (List Node)} :
    k.depth < maxDepth → Ends tokens maxDepth next k.entered r k' →
      Ends tokens maxDepth (.enter opening next) k r k'
  | tooDeep {opening : Token} {next : Code} {k : Cursor} :
    ¬ k.depth < maxDepth →
      Ends tokens maxDepth (.enter opening next) k
        (.error (.fault (.syntactic opening.line (.tooDeep maxDepth)))) k
  | leave {next : Code} {k k' : Cursor} {r : Except Stop (List Node)} :
    Ends tokens maxDepth next k.left r k' → Ends tokens maxDepth (.leave next) k r k'
  | level {next : Nat → Code} {k k' : Cursor} {r : Except Stop (List Node)} :
    Ends tokens maxDepth (next k.depth) k r k' → Ends tokens maxDepth (.level next) k r k'
  | callOk {goal : Goal} {next : List Node → Nat → Code} {nodes : List Node}
    {k k' k'' : Cursor} {r : Except Stop (List Node)} :
    Ends tokens maxDepth goal.code k (.ok nodes) k' → k.position ≤ k'.position →
      Ends tokens maxDepth (next nodes (k'.position - k.position)) k' r k'' →
        Ends tokens maxDepth (.call goal next) k r k''
  | callBack {goal : Goal} {next : List Node → Nat → Code} {nodes : List Node} {k k' : Cursor} :
    Ends tokens maxDepth goal.code k (.ok nodes) k' → ¬ k.position ≤ k'.position →
      Ends tokens maxDepth (.call goal next) k (.error .outside) k'
  | callError {goal : Goal} {next : List Node → Nat → Code} {stop : Stop} {k k' : Cursor} :
    Ends tokens maxDepth goal.code k (.error stop) k' →
      Ends tokens maxDepth (.call goal next) k (.error stop) k'

/-- Code has one outcome at most. -/
theorem Ends.unique {tokens : List Token} {maxDepth : Nat} {code : Code} {k k' k'' : Cursor}
    {r r' : Except Stop (List Node)} (h : Ends tokens maxDepth code k r k')
    (h' : Ends tokens maxDepth code k r' k'') : r = r' ∧ k' = k'' := by
  induction h generalizing r' k'' with
  | give => cases h' with | give => exact ⟨rfl, rfl⟩
  | fail => cases h' with | fail => exact ⟨rfl, rfl⟩
  | failAtEnd => cases h' with | failAtEnd => exact ⟨rfl, rfl⟩
  | peekEnd hnone _ ih =>
    cases h' with
    | peekEnd _ h' => exact ih h'
    | peek hsome _ => simp [hnone] at hsome
  | peek hsome _ ih =>
    cases h' with
    | peekEnd hnone _ => simp [hsome] at hnone
    | peek hsome' h' =>
      obtain rfl := Option.some.inj (hsome.symm.trans hsome')
      exact ih h'
  | advance hlt _ ih =>
    cases h' with
    | advance _ h' => exact ih h'
    | advanceOutside hlt' => exact absurd hlt hlt'
  | advanceOutside hlt =>
    cases h' with
    | advance hlt' _ => exact absurd hlt' hlt
    | advanceOutside _ => exact ⟨rfl, rfl⟩
  | cut hsome _ ih =>
    cases h' with
    | cut hsome' h' =>
      obtain rfl := Option.some.inj (hsome.symm.trans hsome')
      exact ih h'
    | cutOutside hnone => simp [hsome] at hnone
  | cutOutside hnone =>
    cases h' with
    | cut hsome _ => simp [hnone] at hsome
    | cutOutside _ => exact ⟨rfl, rfl⟩
  | enter hlt _ ih =>
    cases h' with
    | enter _ h' => exact ih h'
    | tooDeep hlt' => exact absurd hlt hlt'
  | tooDeep hlt =>
    cases h' with
    | enter hlt' _ => exact absurd hlt' hlt
    | tooDeep _ => exact ⟨rfl, rfl⟩
  | leave _ ih => cases h' with | leave h' => exact ih h'
  | level _ ih => cases h' with | level h' => exact ih h'
  | callOk _ hforward _ ih ihnext =>
    cases h' with
    | callOk h' _ hnext =>
      obtain ⟨hnodes, rfl⟩ := ih h'
      cases hnodes
      exact ihnext hnext
    | callBack h' hback =>
      obtain ⟨-, rfl⟩ := ih h'
      exact absurd hforward hback
    | callError h' => cases (ih h').1
  | callBack _ hback ih =>
    cases h' with
    | callOk h' hforward _ =>
      obtain ⟨-, rfl⟩ := ih h'
      exact absurd hforward hback
    | callBack h' _ => exact ⟨rfl, (ih h').2⟩
    | callError h' => cases (ih h').1
  | callError _ ih =>
    cases h' with
    | callOk h' _ _ => cases (ih h').1
    | callBack h' _ => cases (ih h').1
    | callError h' =>
      obtain ⟨hstop, rfl⟩ := ih h'
      cases hstop
      exact ⟨rfl, rfl⟩

end ExprShell.Reader
