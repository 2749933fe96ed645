/-
Printed code reads back (`parse_display_code`): a call, or any other expression made of calls,
functions, names and data, is printed as a text that is read as one node, equal to it.

Unlike data, code is read in a place. A list becomes the parameters of a function if an arrow
follows, and a name may start a bare call. Printed code never puts an arrow after an expression,
and inside a block no statement that starts with a name. The way is that of data: the texts of the
tokens (`Node.codeTexts`) are what the scanner finds in the printed form (`reads_writeCode`), and
by the rules of the reader they give the node (`element_finds`).
-/
import ExprShell.Proofs.Reader.ReadBack
import ExprShell.Proofs.Reader.Rules

namespace ExprShell

/-! ## Code -/

/-- A name that can stand anywhere in code. -/
def Token.isCodeName (name : String) : Bool :=
  isPlainName name && name ∉ ["let", "match", "cond", "=>"]

/-- A name that can stand at the head of a call, where keywords are names like others. -/
def Token.isHeadName (name : String) : Bool :=
  isPlainName name && name != "=>"

namespace Node

def isName : Node → Bool
  | .identifier .. => true
  | _ => false

/-- What a call can start with. -/
def canHead : Node → Bool
  | .operator _ name => Token.isHeadName name
  | .function .. => true
  | .list s _ => s.quoted
  | _ => false

mutual

/-- Names and literals, functions, and calls of names, of functions and of programs with
variables set. A name is no statement of a block. -/
def isPrintableCode : Node → Bool
  | .number .. | .boolean .. => true
  | .string _ text => !text.toList.contains '"'
  | .identifier _ name => Token.isCodeName name
  | .list s items => if s.quoted then arePrintable items else isPrintableCall items
  | .function _ params body =>
    params.all Token.isCodeName && arePrintableCode body
      && (body.length == 1 || body.all (!isName ·))
  | _ => false

def arePrintableCode : List Node → Bool
  | [] => true
  | n :: rest => isPrintableCode n && arePrintableCode rest

def isPrintableCall : List Node → Bool
  | [] => false
  | head :: args =>
    head.canHead && (head.operatorName?.isSome || isPrintableCode head) && arePrintableCode args

end

mutual

/-- How deep lists and functions are nested. -/
def height : Node → Nat
  | .list _ items => heightAll items + 1
  | .function _ _ body => heightAll body + 1
  | _ => 0

def heightAll : List Node → Nat
  | [] => 0
  | n :: rest => max (height n) (heightAll rest)

end

mutual

/-- The texts of the tokens of printed code. -/
def codeTexts : Node → List String
  | .list s items =>
    if s.quoted then tokenTexts false (.list s items)
    else Opener.paren.text :: (codeTextsAll items ++ [Closer.paren.text])
  | .function _ params body =>
    Opener.paren.text :: (params ++ Closer.paren.text :: "=>" ::
      if body.length = 1 then codeTextsAll body
      else Opener.brace.text :: (statementTexts body ++ [Closer.brace.text]))
  | n => [write false n]

def codeTextsAll : List Node → List String
  | [] => []
  | n :: rest => codeTexts n ++ codeTextsAll rest

/-- The same with a separator after each expression. -/
def statementTexts : List Node → List String
  | [] => []
  | n :: rest => codeTexts n ++ ";" :: statementTexts rest

end

mutual

theorem nesting_le_height (n : Node) : n.nesting ≤ n.height := by
  match n with
  | .list _ items =>
    have h := nestingAll_le_heightAll items
    simp only [nesting, height]
    omega
  | .function .. => exact Nat.zero_le _
  | .string .. | .number .. | .boolean .. | .operator .. | .identifier .. | .command ..
  | .commandResult .. | .error .. | .rawAst .. | .defunc .. => exact Nat.zero_le _

theorem nestingAll_le_heightAll (ns : List Node) : nestingAll ns ≤ heightAll ns := by
  match ns with
  | [] => exact Nat.zero_le _
  | n :: rest =>
    have hn := nesting_le_height n
    have hrest := nestingAll_le_heightAll rest
    simp only [nestingAll, heightAll]
    omega

end

end Node

/-! ## Texts of code -/

namespace Scanner

theorem reads_codeName {name : String} (h : Token.isCodeName name = true) :
    Reads name.toList [name] :=
  reads_plainName (Bool.and_eq_true_iff.1 h).1

/-- Names with spaces between them. -/
theorem reads_spaced {names : List String} (h : ∀ name ∈ names, Token.isCodeName name = true) :
    Reads (Node.spaced names).toList names := by
  match names with
  | [] => exact Reads.nil
  | [name] => simpa [Node.spaced] using reads_codeName (h name List.mem_cons_self)
  | name :: other :: rest =>
    have hfirst := reads_codeName (h name List.mem_cons_self)
    have hothers : Reads (Node.spaced (other :: rest)).toList (other :: rest) :=
      reads_spaced fun n hn => h n (List.mem_cons_of_mem name hn)
    have hspace := hfirst.space hothers
    simpa [Node.spaced] using hspace

theorem reads_arrow : Reads "=>".toList ["=>"] :=
  Reads.word (by decide) (by decide)
    (List.forall_mem_cons.2 ⟨by decide, List.forall_mem_singleton.2 (by decide)⟩)

/-- Items are set next to each other with a space. -/
theorem reads_writeItems_cons {n : Node} {rest : List Node}
    (hn : Reads (n.write false).toList n.codeTexts)
    (hrest : Reads (Node.writeItems false rest).toList (Node.codeTextsAll rest)) :
    Reads (Node.writeItems false (n :: rest)).toList (Node.codeTextsAll (n :: rest)) := by
  cases rest with
  | nil => simpa [Node.writeItems, Node.codeTextsAll] using hn
  | cons m rest =>
    have hspace := hn.space hrest
    rw [Node.writeItems, Node.codeTextsAll]
    simpa using hspace

/-- A body that is no single expression is a block. -/
theorem writeBody_eq_block {body : List Node} (h : body.length ≠ 1) :
    Node.writeBody body = "\x7b " ++ Node.writeStatements body ++ "\x7d" := by
  match body with
  | [] => rfl
  | [_] => exact absurd rfl h
  | n :: m :: rest =>
    have hstatements : Node.writeStatements (n :: m :: rest) =
        n.write false ++ "; " ++ Node.writeStatements (m :: rest) := rfl
    rw [Node.writeBody, hstatements]
    simp only [String.append_assoc]

theorem reads_function {params : List String} {body : String} {texts : List String}
    (hparams : ∀ name ∈ params, Token.isCodeName name = true) (hbody : Reads body.toList texts) :
    Reads ("(" ++ Node.spaced params ++ ") => " ++ body).toList
      (Opener.paren.text :: (params ++ Closer.paren.text :: "=>" :: texts)) := by
  have hlist := ((reads_spaced hparams).closed (c := ')') rfl).opened (c := '(') rfl
  have hall := hlist.space (reads_arrow.space hbody)
  simpa [Opener.text, Closer.text] using hall

theorem reads_block {statements : String} {texts : List String}
    (h : Reads statements.toList texts) :
    Reads ("\x7b " ++ statements ++ "\x7d").toList
      (Opener.brace.text :: (texts ++ [Closer.brace.text])) := by
  have hall := ((Reads.nil.space h).closed (c := '\x7d') rfl).opened (c := '\x7b') rfl
  simpa [Opener.text, Closer.text] using hall

theorem reads_head {head : Node} (h : head.canHead = true) (hname : head.operatorName?.isSome) :
    Reads (head.write false).toList head.codeTexts := by
  cases head with
  | operator s name => exact reads_plainName (Bool.and_eq_true_iff.1 h).1
  | _ => cases hname

mutual

/-- The scanner finds the tokens of printed code. -/
theorem reads_writeCode (n : Node) (h : n.isPrintableCode = true) :
    Reads (n.write false).toList n.codeTexts := by
  match n with
  | .number _ n => exact reads_number n
  | .boolean _ b => exact reads_boolean b
  | .string _ text => exact reads_string (by simpa [Node.isPrintableCode] using h)
  | .identifier _ name => exact reads_codeName h
  | .list s items =>
    rw [Node.isPrintableCode] at h
    rw [Node.codeTexts]
    cases hs : s.quoted with
    | true =>
      rw [if_pos hs] at h
      exact reads_write false (.list s items) h
    | false =>
      have hitems := ((reads_writeCall items (by simpa [hs] using h)).closed (c := ')') rfl).opened
        (c := '(') rfl
      simpa [Node.write, hs, Opener.text, Closer.text] using hitems
  | .function _ params body =>
    simp only [Node.isPrintableCode, Bool.and_eq_true, List.all_eq_true] at h
    obtain ⟨⟨hparams, hbody⟩, -⟩ := h
    rw [Node.write, Node.codeTexts]
    refine reads_function hparams ?_
    match body with
    | [n] =>
      rw [Node.arePrintableCode, Bool.and_eq_true] at hbody
      simpa [Node.writeBody, Node.codeTextsAll] using reads_writeCode n hbody.1
    | [] => exact reads_block (reads_writeStatements [] rfl)
    | n :: m :: rest =>
      have hlength : (n :: m :: rest).length ≠ 1 := by simp
      rw [writeBody_eq_block hlength, if_neg hlength]
      exact reads_block (reads_writeStatements (n :: m :: rest) hbody)

theorem reads_writeCall (items : List Node) (h : Node.isPrintableCall items = true) :
    Reads (Node.writeItems false items).toList (Node.codeTextsAll items) := by
  match items with
  | head :: args =>
    simp only [Node.isPrintableCall, Bool.and_eq_true, Bool.or_eq_true] at h
    obtain ⟨⟨hhead, hcases⟩, hargs⟩ := h
    refine reads_writeItems_cons ?_ (reads_writeCodeItems args hargs)
    obtain hname | hcode := hcases
    · exact reads_head hhead hname
    · exact reads_writeCode head hcode

theorem reads_writeCodeItems (ns : List Node) (h : Node.arePrintableCode ns = true) :
    Reads (Node.writeItems false ns).toList (Node.codeTextsAll ns) := by
  match ns with
  | [] => exact Reads.nil
  | n :: rest =>
    rw [Node.arePrintableCode, Bool.and_eq_true] at h
    exact reads_writeItems_cons (reads_writeCode n h.1) (reads_writeCodeItems rest h.2)

theorem reads_writeStatements (ns : List Node) (h : Node.arePrintableCode ns = true) :
    Reads (Node.writeStatements ns).toList (Node.statementTexts ns) := by
  match ns with
  | [] => exact Reads.nil
  | n :: rest =>
    rw [Node.arePrintableCode, Bool.and_eq_true] at h
    have hfirst := (reads_writeCode n h.1).closed (c := ';') rfl
    have hall := hfirst.space (reads_writeStatements rest h.2)
    rw [Node.writeStatements, Node.statementTexts]
    simpa using hall

end

end Scanner

/-! ## Reading of code -/

namespace Reader

variable {c : Context} {depth : Nat} {t opening closing : Token} {first keywords : Bool}
  {m n : Node} {ms ns : List Node} {ts after rest : List Token}

/-- By the rules, something is read up to the rest as a node equal to another one, and quoted if
that one is. -/
def Finds (c : Context) (goal : Goal) (depth : Nat) (ts : List Token) (n : Node)
    (rest : List Token) : Prop :=
  ∃ m, Runs c (goal.plan depth) ts (.ok ([m], rest)) ∧ m.same n = true ∧ m.isData = n.isData

/-- The same of several nodes. -/
def FindsAll (c : Context) (goal : Goal) (depth : Nat) (ts : List Token) (ns : List Node)
    (rest : List Token) : Prop :=
  ∃ ms, Runs c (goal.plan depth) ts (.ok (ms, rest)) ∧ Node.sameAll ms ns = true

/-! ### Functions and blocks -/

/-- A body in braces. -/
theorem runs_block (ht : t.text = Opener.brace.text) (hdepth : depth < c.maxDepth)
    (h : Runs c ((Goal.statements t).plan (depth + 1)) ts (.ok (ms, rest))) :
    Runs c ((Goal.functionBody opening).plan depth) (t :: ts) (.ok (ms, rest)) := by
  refine .peek ?_
  rw [if_pos (Token.shape_of_opener ht)]
  exact .shift (.deeper hdepth (.readOk h .give))

theorem runs_statements_closed (ht : t.text = Closer.brace.text) :
    Runs c ((Goal.statements opening).plan depth) (t :: rest) (.ok ([], rest)) := by
  refine .peek ?_
  rw [Token.shape_of_closer ht]
  exact .shift .give

/-- A statement, its separator, and the statements after it. -/
theorem runs_statements_cons {semicolon : Token} (hsemicolon : semicolon.text = ";")
    (hshape : t.shape = .word ∨ ∃ o, t.shape = .opener o)
    (hm : Runs c (Goal.statement.plan depth) (t :: ts) (.ok ([m], semicolon :: after)))
    (hms : Runs c ((Goal.statements opening).plan depth) after (.ok (ms, rest))) :
    Runs c ((Goal.statements opening).plan depth) (t :: ts) (.ok (m :: ms, rest)) := by
  have hseparator : semicolon.shape = .separator := by simp [Token.shape, hsemicolon]
  have hothers : Runs c ((Goal.statements opening).plan depth) (semicolon :: after)
      (.ok (ms, rest)) := by
    refine .peek ?_
    rw [hseparator]
    exact .shift (.just hms)
  have hsequence : Runs c (.sequence .statement (.statements opening) depth) (t :: ts)
      (.ok (m :: ms, rest)) := .readOk hm (.readOk hothers .give)
  refine .peek ?_
  obtain hword | ⟨o, ho⟩ := hshape
  · rw [hword]
    exact hsequence
  · rw [ho]
    exact hsequence

/-! ### Names -/

theorem isCodeName_cases {name : String} (h : Token.isCodeName name = true) :
    Token.isPlainName name = true ∧ name ≠ "let" ∧ name ≠ "match" ∧ name ≠ "cond" ∧
      name ≠ "=>" := by
  simpa [Token.isCodeName] using h

theorem keyword?_of_isCodeName (h : Token.isCodeName t.text = true) : t.keyword? = none := by
  obtain ⟨-, hlet, hmatch, hcond, -⟩ := isCodeName_cases h
  unfold Token.keyword?
  split
  · next heq => exact absurd heq hlet
  · next heq => exact absurd heq hmatch
  · next heq => exact absurd heq hcond
  · rfl

theorem isName_of_isPlainName (h : Token.isPlainName t.text = true) : t.isName = true := by
  have hshape := Token.shape_of_isWord (IsWord.plainName h)
  have hstring := Token.isString_of_isWord (IsWord.plainName h)
  obtain ⟨c, rest, htext, -, -, -, -, hnumber, htrue, hfalse⟩ := Token.isPlainName_cases h
  simp [Token.isName, hshape, hstring, Token.isNumber, hnumber, isEscape_of_isPlainName h, htrue,
    hfalse]

/-- Parameters are read as they are. -/
theorem runs_params {params : List String} (h : ∀ name ∈ params, Token.isCodeName name = true)
    (hts : ts.map (·.text) = params) (hclosing : closing.text = Closer.paren.text) :
    Runs c ((Goal.items .paren opening false first).plan depth) (ts ++ closing :: rest)
      (.ok (params.map (nameAt depth), rest)) := by
  induction ts generalizing params first with
  | nil =>
    cases hts
    exact runs_items_closed (Token.shape_of_closer hclosing)
  | cons t ts ih =>
    subst hts
    have hname := h t.text List.mem_cons_self
    have hplain := (isCodeName_cases hname).1
    have hshape := Token.shape_of_isWord (IsWord.plainName hplain)
    refine runs_items_cons (fun k => by simp [hshape]) (m := nameAt depth t.text) ?_
      (ih (fun name hmem => h name (List.mem_cons_of_mem _ hmem)) rfl)
    exact runs_word hshape (.inl (keyword?_of_isCodeName hname)) (atom_plainName hplain)

theorem paramNames_nameAt (params : List String) :
    paramNames (params.map (nameAt depth)) = .ok params := by
  induction params with
  | nil => rfl
  | cons name rest ih =>
    change (paramNames (rest.map (nameAt depth))).map (name :: ·) = _
    rw [ih]
    rfl

/-! ### Where code starts -/

/-- A token that printed code can start with: a word or the start of a list, but no arrow. -/
structure StartsCode (t : Token) : Prop where
  shape : t.shape = .word ∨ t.shape = .opener .paren ∨ t.shape = .opener .quotedBracket
  noArrow : t.text ≠ "=>"

theorem StartsCode.ne_closer (h : StartsCode t) (k : Closer) : t.shape ≠ .closer k := by
  obtain hshape | hshape | hshape := h.shape
  all_goals simp [hshape]

theorem StartsCode.ne_separator (h : StartsCode t) : t.shape ≠ .separator := by
  obtain hshape | hshape | hshape := h.shape
  all_goals simp [hshape]

theorem StartsCode.ne_brace (h : StartsCode t) : t.shape ≠ .opener .brace := by
  obtain hshape | hshape | hshape := h.shape
  all_goals simp [hshape]

theorem StartsCode.word_or_opener (h : StartsCode t) :
    t.shape = .word ∨ ∃ o, t.shape = .opener o := by
  obtain hshape | hshape | hshape := h.shape
  · exact .inl hshape
  · exact .inr ⟨_, hshape⟩
  · exact .inr ⟨_, hshape⟩

theorem startsCode_of_opener {o : Opener} (ht : t.text = o.text)
    (ho : o = .paren ∨ o = .quotedBracket) : StartsCode t := by
  have hshape := Token.shape_of_opener ht
  refine ⟨?_, text_ne_arrow (isName_of_opener hshape)⟩
  obtain rfl | rfl := ho
  · exact .inr (.inl hshape)
  · exact .inr (.inr hshape)

/-- A literal that is one word. -/
theorem startsCode_of_literal (hn : n.isPrintable = true) (hl : n.isLiteral = true)
    (hleaf : n.nesting = 0) (ht : t.text = n.write false) :
    StartsCode t ∧ t.isName = false := by
  have hname := isName_of_literal hl hleaf ht
  exact ⟨⟨.inl (atom_of_leaf hn hleaf ht 0).1, text_ne_arrow hname⟩, hname⟩

/-- Printed code starts with a name only if it is one. -/
theorem codeTexts_eq_cons (hn : n.isPrintableCode = true)
    (hts : ts.map (·.text) = n.codeTexts) :
    ∃ t rest, ts = t :: rest ∧ StartsCode t ∧ (n.isName = false → t.isName = false) := by
  match n with
  | .number .. | .boolean .. =>
    obtain ⟨t, rfl, ht⟩ := List.map_eq_singleton_iff.1 hts
    obtain ⟨hstarts, hname⟩ := startsCode_of_literal rfl rfl rfl ht
    exact ⟨t, [], rfl, hstarts, fun _ => hname⟩
  | .string .. =>
    obtain ⟨t, rfl, ht⟩ := List.map_eq_singleton_iff.1 hts
    obtain ⟨hstarts, hname⟩ := startsCode_of_literal (n := .string _ _) hn rfl rfl ht
    exact ⟨t, [], rfl, hstarts, fun _ => hname⟩
  | .identifier _ name =>
    obtain ⟨t, rfl, ht⟩ := List.map_eq_singleton_iff.1 hts
    change t.text = name at ht
    subst ht
    obtain ⟨hplain, -, -, -, harrow⟩ := isCodeName_cases hn
    have hshape := Token.shape_of_isWord (IsWord.plainName hplain)
    exact ⟨t, [], rfl, ⟨.inl hshape, harrow⟩, fun h => nomatch h⟩
  | .list s items =>
    rw [Node.codeTexts] at hts
    split at hts
    · next hs =>
      obtain ⟨t, rest, rfl, ht, -⟩ := List.map_eq_cons_iff.1 hts
      have hopener : Node.printedOpener false s = .quotedBracket := by
        simp [Node.printedOpener, hs]
      rw [hopener] at ht
      exact ⟨t, rest, rfl, startsCode_of_opener ht (.inr rfl),
        fun _ => isName_of_opener (Token.shape_of_opener ht)⟩
    · obtain ⟨t, rest, rfl, ht, -⟩ := List.map_eq_cons_iff.1 hts
      exact ⟨t, rest, rfl, startsCode_of_opener ht (.inl rfl),
        fun _ => isName_of_opener (Token.shape_of_opener ht)⟩
  | .function .. =>
    obtain ⟨t, rest, rfl, ht, -⟩ := List.map_eq_cons_iff.1 hts
    exact ⟨t, rest, rfl, startsCode_of_opener ht (.inl rfl),
      fun _ => isName_of_opener (Token.shape_of_opener ht)⟩
  | .operator .. | .command .. | .commandResult .. | .error .. | .rawAst .. | .defunc .. =>
    cases hn

/-- Neither the items of a list nor what closes it is an arrow. -/
theorem noArrow_items (hns : Node.arePrintableCode ns = true)
    (hts : ts.map (·.text) = Node.codeTextsAll ns) (hclosing : closing.text = Closer.paren.text) :
    NoArrow (ts ++ closing :: rest) := by
  cases ns with
  | nil =>
    cases List.map_eq_nil_iff.1 hts
    exact .cons (by rw [hclosing]; decide)
  | cons n ns =>
    rw [Node.arePrintableCode, Bool.and_eq_true] at hns
    obtain ⟨us, vs, rfl, hus, -⟩ := List.map_eq_append_iff.1 hts
    obtain ⟨t, us, rfl, hstarts, -⟩ := codeTexts_eq_cons hns.1 hus
    exact .cons hstarts.noArrow

/-! ### Expressions -/

theorem isData_of_same (h : m.same n = true) (hn : n.kind ≠ .list) : m.isData = n.isData := by
  cases n with
  | list => exact absurd rfl hn
  | _ =>
    cases m with
    | list => cases h
    | _ => rfl

theorem finds_leaf (hn : n.isPrintable = true) (hleaf : n.nesting = 0)
    (ht : t.text = n.write false) (hkeyword : t.keyword? = none) :
    Finds c (.element keywords) depth (t :: rest) n rest := by
  obtain ⟨hshape, m, hm, hsame⟩ := atom_of_leaf hn hleaf ht depth
  refine ⟨m, runs_word hshape (.inl hkeyword) hm, hsame, isData_of_same hsame ?_⟩
  cases n with
  | list => simp [Node.nesting] at hleaf
  | _ => simp [Node.kind]

theorem finds_literal (hn : n.isPrintable = true) (hl : n.isLiteral = true)
    (hleaf : n.nesting = 0) (ht : t.text = n.write false) :
    Finds c (.element keywords) depth (t :: rest) n rest :=
  finds_leaf hn hleaf ht (keyword?_eq_none (isName_of_literal hl hleaf ht))

/-- Data in code is read as data. -/
theorem finds_data {s : Stamp} {items : List Node} (hs : s.quoted = true)
    (hn : Node.arePrintable items = true)
    (hdepth : depth + (Node.list s items).nesting ≤ c.maxDepth)
    (hts : ts.map (·.text) = (Node.list s items).tokenTexts false) :
    Finds c (.element keywords) depth (ts ++ rest) (.list s items) rest := by
  have hopener : Node.printedOpener false s = .quotedBracket := by simp [Node.printedOpener, hs]
  rw [Node.tokenTexts, hopener] at hts
  rw [Node.nesting] at hdepth
  obtain ⟨t, us, closing, ht, hus, hclosing, htokens⟩ := delimited_of_map_text hts
  have hinner : depth + 1 + Node.nestingAll items ≤ c.maxDepth := by omega
  obtain ⟨p, hp, hrest, hsame⟩ := items_gives s.quoted items hn hinner hus hclosing t true rest
  have hitems : Runs c ((Goal.items .quotedBracket t true true).plan (depth + 1))
      (us ++ closing :: rest) (.ok (p.value, rest)) := by
    refine runs_iff.2 ?_
    rw [run, hp]
    exact congrArg (fun after => (.ok (p.value, after) : Result)) hrest
  rw [htokens]
  refine ⟨.list { depth := depth, quoted := true } p.value, .peek ?_, hsame, hs.symm⟩
  rw [Token.shape_of_opener ht]
  exact .shift (.deeper (by omega) (.readOk hitems .give))

/-- A head that is no name stays what it was read as. -/
theorem callItems_cons {head : Node} (hhead : head.canHead = true)
    (hname : head.operatorName? = none) (hsame : m.same head = true)
    (hdata : m.isData = head.isData) : callItems (m :: ms) = .ok (m :: ms) := by
  cases head with
  | operator => cases hname
  | function =>
    cases m with
    | function => rfl
    | _ => cases hsame
  | list s items =>
    cases m with
    | list s' items' =>
      have hquoted : s'.quoted = true := hdata.trans hhead
      rw [callItems, if_pos hquoted]
    | _ => cases hsame
  | _ => cases hhead

/-- The head of a call: a name, which becomes an operator, or an expression. -/
theorem finds_head {head : Node} (hhead : head.canHead = true)
    (hts : ts.map (·.text) = head.codeTexts)
    (hcode : head.operatorName? = none → Finds c (.element false) depth (ts ++ rest) head rest) :
    ∃ m n, Runs c ((Goal.element false).plan depth) (ts ++ rest) (.ok ([m], rest)) ∧
      n.same head = true ∧ ∀ ms, callItems (m :: ms) = .ok (n :: ms) := by
  cases hname : head.operatorName? with
  | none =>
    obtain ⟨m, hm, hsame, hdata⟩ := hcode hname
    exact ⟨m, m, hm, hsame, fun ms => callItems_cons hhead hname hsame hdata⟩
  | some name =>
    cases head with
    | operator s name =>
      obtain ⟨t, rfl, ht⟩ := List.map_eq_singleton_iff.1 hts
      change t.text = name at ht
      subst ht
      have hplain := (Bool.and_eq_true_iff.1 hhead).1
      have hshape := Token.shape_of_isWord (IsWord.plainName hplain)
      refine ⟨nameAt depth t.text, operatorAt depth t.text, ?_, ?_, fun ms => rfl⟩
      · exact runs_word hshape (.inr rfl) (atom_plainName hplain)
      · exact beq_self_eq_true t.text
    | _ => cases hname

/-- The head of a call starts no closer. -/
theorem ne_closer_of_head {head : Node} (hhead : head.canHead = true)
    (hcode : head.operatorName?.isSome ∨ head.isPrintableCode = true)
    (hts : ts.map (·.text) = head.codeTexts) :
    ∃ t rest, ts = t :: rest ∧ ∀ k, t.shape ≠ .closer k := by
  obtain hname | hcode := hcode
  · cases head with
    | operator s name =>
      obtain ⟨t, rfl, ht⟩ := List.map_eq_singleton_iff.1 hts
      change t.text = name at ht
      subst ht
      have hshape := Token.shape_of_isWord (IsWord.plainName (Bool.and_eq_true_iff.1 hhead).1)
      exact ⟨t, [], rfl, fun k => by simp [hshape]⟩
    | _ => cases hname
  · obtain ⟨t, rest, rfl, hstarts, -⟩ := codeTexts_eq_cons hcode hts
    exact ⟨t, rest, rfl, hstarts.ne_closer⟩

mutual

/-- The tokens of printed code are read as an expression equal to it. -/
theorem element_finds (n : Node) (hn : n.isPrintableCode = true) {depth : Nat}
    (hdepth : depth + n.height ≤ c.maxDepth) {ts : List Token}
    (hts : ts.map (·.text) = n.codeTexts) (keywords : Bool) {rest : List Token}
    (hrest : NoArrow rest) : Finds c (.element keywords) depth (ts ++ rest) n rest := by
  match n with
  | .number .. | .boolean .. =>
    obtain ⟨t, rfl, ht⟩ := List.map_eq_singleton_iff.1 hts
    exact finds_literal rfl rfl rfl ht
  | .string .. =>
    obtain ⟨t, rfl, ht⟩ := List.map_eq_singleton_iff.1 hts
    exact finds_literal (n := .string _ _) hn rfl rfl ht
  | .identifier s name =>
    obtain ⟨t, rfl, ht⟩ := List.map_eq_singleton_iff.1 hts
    change t.text = name at ht
    subst ht
    exact finds_leaf (n := .identifier s t.text) (isCodeName_cases hn).1 rfl rfl
      (keyword?_of_isCodeName hn)
  | .list s items =>
    have hnesting := Node.nesting_le_height (.list s items)
    rw [Node.isPrintableCode] at hn
    rw [Node.codeTexts] at hts
    cases hs : s.quoted with
    | true =>
      rw [if_pos hs] at hn hts
      exact finds_data hs hn (by omega) hts
    | false =>
      rw [if_neg (by simp [hs])] at hn hts
      rw [Node.height] at hdepth
      obtain ⟨t, us, closing, ht, hus, hclosing, htokens⟩ := delimited_of_map_text hts
      have hinner : depth + 1 + Node.heightAll items ≤ c.maxDepth := by omega
      obtain ⟨ms, ns, hms, hcall, hsame⟩ := call_finds items hn hinner hus hclosing t rest
      rw [htokens]
      refine ⟨callAt depth ns, runs_opened (Token.shape_of_opener ht) ?_, hsame, hs.symm⟩
      exact runs_call (by omega) hms hcall hrest
  | .function s params body =>
    rw [Node.height] at hdepth
    simp only [Node.isPrintableCode, Bool.and_eq_true, List.all_eq_true] at hn
    obtain ⟨⟨hparams, hbody⟩, hnames⟩ := hn
    rw [Node.codeTexts] at hts
    obtain ⟨t, us, rfl, ht, hus⟩ := List.map_eq_cons_iff.1 hts
    obtain ⟨ps, vs, rfl, hps, hvs⟩ := List.map_eq_append_iff.1 hus
    obtain ⟨closing, ws, rfl, hclosing, hws⟩ := List.map_eq_cons_iff.1 hvs
    obtain ⟨arrow, bs, rfl, harrow, hbs⟩ := List.map_eq_cons_iff.1 hws
    have hinner : depth + 1 + Node.heightAll body ≤ c.maxDepth := by omega
    obtain ⟨ns, hns, hsame⟩ := body_finds body hbody hnames hinner hbs t hrest
    refine ⟨.function { depth := depth } params ns, ?_, ?_, rfl⟩
    · have hlist : Runs c ((Goal.items .paren t false true).plan (depth + 1))
          (ps ++ closing :: arrow :: (bs ++ rest))
          (.ok (params.map (nameAt (depth + 1)), arrow :: (bs ++ rest))) :=
        runs_params hparams hps hclosing
      have hfunction := runs_function (by omega) hlist (paramNames_nameAt params) harrow hns
      have htokens : t :: (ps ++ closing :: arrow :: bs) ++ rest =
          t :: (ps ++ closing :: arrow :: (bs ++ rest)) := by simp
      rw [htokens]
      exact runs_opened (Token.shape_of_opener ht) hfunction
    · rw [Node.same, hsame]
      simp
  | .operator .. | .command .. | .commandResult .. | .error .. | .rawAst .. | .defunc .. =>
    cases hn

/-- The body of a function, a single expression or a block. -/
theorem body_finds (body : List Node) (hbody : Node.arePrintableCode body = true)
    (hnames : (body.length == 1 || body.all (!Node.isName ·)) = true) {depth : Nat}
    (hdepth : depth + 1 + Node.heightAll body ≤ c.maxDepth) {ts : List Token}
    (hts : ts.map (·.text) = if body.length = 1 then Node.codeTextsAll body
      else Opener.brace.text :: (Node.statementTexts body ++ [Closer.brace.text]))
    (opening : Token) {rest : List Token} (hrest : NoArrow rest) :
    FindsAll c (.functionBody opening) depth (ts ++ rest) body rest := by
  by_cases hlength : body.length = 1
  · match body with
    | [n] =>
      simp only [Node.arePrintableCode, Bool.and_true] at hbody
      simp only [Node.heightAll, Nat.max_zero] at hdepth
      simp only [List.length_singleton, if_pos, Node.codeTextsAll, List.append_nil] at hts
      obtain ⟨m, hm, hsame, -⟩ := element_finds n hbody hdepth hts true hrest
      obtain ⟨t, us, rfl, hstarts, -⟩ := codeTexts_eq_cons hbody hts
      refine ⟨[m], runs_body hstarts.ne_brace (by omega) hm, ?_⟩
      rw [Node.sameAll, hsame]
      rfl
  · rw [if_neg hlength] at hts
    obtain ⟨t, us, closing, ht, hus, hclosing, htokens⟩ := delimited_of_map_text hts
    have hnone : ∀ n ∈ body, n.isName = false := by simpa [hlength] using hnames
    obtain ⟨ms, hms, hsame⟩ := statements_finds body hbody hnone hdepth hus hclosing t rest
    refine ⟨ms, ?_, hsame⟩
    rw [htokens]
    exact runs_block ht (by omega) hms

/-- What stands between the parentheses of a call. -/
theorem call_finds (items : List Node) (hitems : Node.isPrintableCall items = true) {depth : Nat}
    (hdepth : depth + Node.heightAll items ≤ c.maxDepth) {ts : List Token}
    (hts : ts.map (·.text) = Node.codeTextsAll items) {closing : Token}
    (hclosing : closing.text = Closer.paren.text) (opening : Token) (rest : List Token) :
    ∃ ms ns, Runs c ((Goal.items .paren opening false true).plan depth) (ts ++ closing :: rest)
      (.ok (ms, rest)) ∧ callItems ms = .ok ns ∧ Node.sameAll ns items = true := by
  match items with
  | head :: args =>
    simp only [Node.isPrintableCall, Bool.and_eq_true, Bool.or_eq_true] at hitems
    obtain ⟨⟨hhead, hcases⟩, hargs⟩ := hitems
    rw [Node.heightAll] at hdepth
    obtain ⟨us, vs, rfl, hus, hvs⟩ := List.map_eq_append_iff.1 hts
    have hdepthHead : depth + head.height ≤ c.maxDepth := by omega
    have hdepthArgs : depth + Node.heightAll args ≤ c.maxDepth := by omega
    obtain ⟨ms, hms, hsames⟩ := items_finds args hargs hdepthArgs hvs hclosing opening rest
    have hafter : NoArrow (vs ++ closing :: rest) := noArrow_items hargs hvs hclosing
    obtain ⟨m, n, hm, hsame, hcall⟩ := finds_head hhead hus fun hname => by
      have hcode : head.isPrintableCode = true := by
        obtain hsome | hcode := hcases
        · rw [hname] at hsome
          cases hsome
        · exact hcode
      exact element_finds head hcode hdepthHead hus false hafter
    obtain ⟨t, us, rfl, hshape⟩ := ne_closer_of_head hhead hcases hus
    rw [List.append_assoc]
    refine ⟨m :: ms, n :: ms, runs_items_cons hshape hm hms, hcall ms, ?_⟩
    rw [Node.sameAll, hsame, hsames]
    rfl

theorem items_finds (ns : List Node) (hns : Node.arePrintableCode ns = true) {depth : Nat}
    (hdepth : depth + Node.heightAll ns ≤ c.maxDepth) {ts : List Token}
    (hts : ts.map (·.text) = Node.codeTextsAll ns) {closing : Token}
    (hclosing : closing.text = Closer.paren.text) (opening : Token) (rest : List Token) :
    FindsAll c (.items .paren opening false false) depth (ts ++ closing :: rest) ns rest := by
  match ns with
  | [] =>
    cases List.map_eq_nil_iff.1 hts
    exact ⟨[], runs_items_closed (Token.shape_of_closer hclosing), rfl⟩
  | n :: ns =>
    rw [Node.arePrintableCode, Bool.and_eq_true] at hns
    rw [Node.heightAll] at hdepth
    obtain ⟨us, vs, rfl, hus, hvs⟩ := List.map_eq_append_iff.1 hts
    have hdepthFirst : depth + n.height ≤ c.maxDepth := by omega
    have hdepthOthers : depth + Node.heightAll ns ≤ c.maxDepth := by omega
    obtain ⟨ms, hms, hsames⟩ := items_finds ns hns.2 hdepthOthers hvs hclosing opening rest
    obtain ⟨m, hm, hsame, -⟩ := element_finds n hns.1 hdepthFirst hus true
      (noArrow_items hns.2 hvs hclosing)
    obtain ⟨t, us, rfl, hstarts, -⟩ := codeTexts_eq_cons hns.1 hus
    rw [List.append_assoc]
    refine ⟨m :: ms, runs_items_cons hstarts.ne_closer hm hms, ?_⟩
    rw [Node.sameAll, hsame, hsames]
    rfl

theorem statements_finds (ns : List Node) (hns : Node.arePrintableCode ns = true)
    (hnames : ∀ n ∈ ns, n.isName = false) {depth : Nat}
    (hdepth : depth + Node.heightAll ns ≤ c.maxDepth) {ts : List Token}
    (hts : ts.map (·.text) = Node.statementTexts ns) {closing : Token}
    (hclosing : closing.text = Closer.brace.text) (opening : Token) (rest : List Token) :
    FindsAll c (.statements opening) depth (ts ++ closing :: rest) ns rest := by
  match ns with
  | [] =>
    cases List.map_eq_nil_iff.1 hts
    exact ⟨[], runs_statements_closed hclosing, rfl⟩
  | n :: ns =>
    rw [Node.arePrintableCode, Bool.and_eq_true] at hns
    rw [Node.heightAll] at hdepth
    obtain ⟨us, vs, rfl, hus, hvs⟩ := List.map_eq_append_iff.1 hts
    obtain ⟨semicolon, vs, rfl, hsemicolon, hvs⟩ := List.map_eq_cons_iff.1 hvs
    have hdepthFirst : depth + n.height ≤ c.maxDepth := by omega
    have hdepthOthers : depth + Node.heightAll ns ≤ c.maxDepth := by omega
    have harrow : NoArrow (semicolon :: (vs ++ closing :: rest)) :=
      .cons (by rw [hsemicolon]; decide)
    obtain ⟨m, hm, hsame, -⟩ := element_finds n hns.1 hdepthFirst hus true harrow
    obtain ⟨ms, hms, hsames⟩ := statements_finds ns hns.2
      (fun n hn => hnames n (List.mem_cons_of_mem _ hn)) hdepthOthers hvs hclosing opening rest
    obtain ⟨t, us, rfl, hstarts, hname⟩ := codeTexts_eq_cons hns.1 hus
    rw [List.append_assoc]
    have hstatement := runs_statement (hname (hnames n List.mem_cons_self)) hm
    refine ⟨m :: ms, runs_statements_cons hsemicolon hstarts.word_or_opener hstatement hms, ?_⟩
    rw [Node.sameAll, hsame, hsames]
    rfl

end

/-- Where it stands alone, printed code is a statement. -/
theorem statement_finds (hn : n.isPrintableCode = true) (hdepth : n.height ≤ c.maxDepth)
    (hts : ts.map (·.text) = n.codeTexts) : Finds c .statement 0 ts n [] := by
  cases hname : n.isName with
  | false =>
    have hdepth : 0 + n.height ≤ c.maxDepth := by omega
    obtain ⟨m, hm, hsame⟩ := element_finds n hn hdepth hts true .nil
    obtain ⟨t, us, rfl, -, hnotName⟩ := codeTexts_eq_cons hn hts
    rw [List.append_nil] at hm
    exact ⟨m, runs_statement (hnotName hname) hm, hsame⟩
  | true =>
    cases n with
    | identifier s name =>
      obtain ⟨t, rfl, ht⟩ := List.map_eq_singleton_iff.1 hts
      change t.text = name at ht
      subst ht
      refine ⟨nameAt 0 t.text, .peek ?_, beq_self_eq_true t.text, rfl⟩
      rw [if_pos (isName_of_isPlainName (isCodeName_cases hn).1)]
      refine .shift ?_
      rw [Plan.named, keyword?_of_isCodeName hn]
      exact .peekEnd .give
    | _ => cases hname

end Reader

/-- **Printed code reads back**, as one node equal to it. -/
theorem parse_display_code (n : Node) (maxDepth : Nat) (hcode : n.isPrintableCode = true)
    (hheight : n.height ≤ maxDepth) :
    ∃ m, parse n.display maxDepth = .ok [m] ∧ m.same n = true := by
  obtain ⟨tokens, htokens, htexts⟩ := tokenize_of_reads (Scanner.reads_writeCode n hcode)
  obtain ⟨m, hm, hsame, -⟩ := Reader.statement_finds (c := ⟨maxDepth, Reader.lastLine tokens⟩)
    hcode hheight htexts
  obtain ⟨t, rest, rfl, hstarts, -⟩ := Reader.codeTexts_eq_cons hcode htexts
  have hprogram := Reader.runs_program hstarts.ne_separator hm
  exact ⟨m, Reader.parse_eq_ok_iff.2 ⟨t :: rest, htokens, hprogram⟩, hsame⟩

/-- A binding of a function with a block, in which a call is headed by a keyword and a string has
delimiters in it, next to a call of a function whose body is a name, at the least depth that
allows it. -/
theorem parse_display_code_function :
    let x : Node := .identifier {} "x"
    let n : Node := .call [.operator {} "let", .identifier {} "f",
      .function {} ["x", "y"] [.call [.operator {} "match", x], .ofString "; )"],
      .call [.function {} ["x"] [x], .ofInt64 (-1), .data [.identifier {} "=>"]]]
    n.display = "(let f (x y) => \x7b (match x); \"; )\"; \x7d ((x) => x -1 '[=>]))" ∧
      ∃ m, parse n.display 3 = .ok [m] ∧ m.same n = true := by
  intro x n
  refine ⟨by decide +kernel, parse_display_code n 3 ?_ ?_⟩
  · decide +kernel
  · decide +kernel

end ExprShell
