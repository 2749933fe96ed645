/-
Printed data reads back (`parse_display`): the printed form of a number, a boolean, a string
without a double quote or a quoted list of data is read as one node, equal to what was printed.

The way leads through the texts of the tokens of a node (`Node.tokenTexts`). The scanner finds
them in the printed form (`reads_write`), and the reader of quoted data makes the node out of
tokens with these texts, whatever their lines (`dataElement_gives`).
-/
import ExprShell.Node.Print
import ExprShell.Proofs.Number
import ExprShell.Proofs.Reader.Agreement
import ExprShell.Proofs.Token.Reads

namespace ExprShell

/-! ## Data -/

/-- A name that is one plain token: it has no blank, delimiter or double quote in it, does not
start a number or a comment, and is no literal and no escape. -/
def Token.isPlainName (name : String) : Bool :=
  match name.toList with
  | [] => false
  | c :: rest =>
    (c :: rest).all Scanner.isWordChar && !c.isDigit && c != '#' && !(c == '@' && !rest.isEmpty)
      && !Number.isLiteral name && name != "true" && name != "false"

theorem Token.isPlainName_cases {name : String} (h : isPlainName name = true) :
    ∃ c rest, name.toList = c :: rest ∧ (∀ d ∈ c :: rest, Scanner.isWordChar d = true) ∧
      c.isDigit = false ∧ c ≠ '#' ∧ (c = '@' → rest = []) ∧
      Number.isLiteral name = false ∧ name ≠ "true" ∧ name ≠ "false" := by
  unfold isPlainName at h
  split at h
  · cases h
  · next c rest hname =>
    simp only [Bool.and_eq_true, List.all_eq_true, Bool.not_eq_true', bne_iff_ne, ne_eq,
      Bool.and_eq_false_imp, beq_iff_eq, Bool.not_eq_false', List.isEmpty_iff] at h
    obtain ⟨⟨⟨⟨⟨⟨hword, hdigit⟩, hcomment⟩, hescape⟩, hnumber⟩, htrue⟩, hfalse⟩ := h
    exact ⟨c, rest, hname, hword, hdigit, hcomment, hescape, hnumber, htrue, hfalse⟩

/-- A word that is a token where it is printed: it starts no comment, and if it starts with a digit
it has nothing else. -/
def Token.isOneToken (name : String) : Bool :=
  match name.toList with
  | [] => false
  | c :: rest =>
    (c :: rest).all Scanner.isWordChar && c != '#' && (!c.isDigit || rest.all Char.isDigit)

theorem Token.isOneToken_of_isPlainName {name : String} (h : isPlainName name = true) :
    isOneToken name = true := by
  obtain ⟨c, rest, hname, hword, hdigit, hcomment, -⟩ := isPlainName_cases h
  unfold isOneToken
  rw [hname]
  simpa [hdigit, hcomment] using hword

namespace Node

mutual

/-- Numbers, booleans, strings without a double quote, plain names, and lists of these. -/
def isPrintable : Node → Bool
  | .number .. | .boolean .. => true
  | .string _ text => !text.toList.contains '"'
  | .identifier _ name => Token.isPlainName name
  | .list _ items => arePrintable items
  | _ => false

def arePrintable : List Node → Bool
  | [] => true
  | n :: rest => isPrintable n && arePrintable rest

end

mutual

/-- Lists of what is one token each. -/
def isTokenwise : Node → Bool
  | .number .. | .boolean .. => true
  | .string _ text => !text.toList.contains '"'
  | .identifier _ name => Token.isOneToken name
  | .list _ items => areTokenwise items
  | _ => false

def areTokenwise : List Node → Bool
  | [] => true
  | n :: rest => isTokenwise n && areTokenwise rest

end

mutual

theorem isTokenwise_of_isPrintable (n : Node) (h : n.isPrintable = true) :
    n.isTokenwise = true := by
  match n with
  | .number .. | .boolean .. => rfl
  | .string .. => exact h
  | .identifier .. => exact Token.isOneToken_of_isPlainName h
  | .list _ items => exact areTokenwise_of_arePrintable items h
  | .function .. | .operator .. | .command .. | .commandResult .. | .error .. | .rawAst ..
  | .defunc .. => cases h

theorem areTokenwise_of_arePrintable (ns : List Node) (h : arePrintable ns = true) :
    areTokenwise ns = true := by
  match ns with
  | [] => rfl
  | n :: rest =>
    rw [arePrintable, Bool.and_eq_true] at h
    rw [areTokenwise, isTokenwise_of_isPrintable n h.1, areTokenwise_of_arePrintable rest h.2]
    rfl

end

mutual

/-- How deep lists are nested. -/
def nesting : Node → Nat
  | .list _ items => nestingAll items + 1
  | _ => 0

def nestingAll : List Node → Nat
  | [] => 0
  | n :: rest => max (nesting n) (nestingAll rest)

end

/-- The delimiter that opens a printed list, `inside` quoted data or not. -/
def printedOpener (inside : Bool) (s : Stamp) : Opener :=
  if s.quoted then if inside then .bracket else .quotedBracket else .paren

mutual

/-- The texts of the tokens of a printed node. -/
def tokenTexts (inside : Bool) : Node → List String
  | .list s items =>
    (printedOpener inside s).text ::
      (tokenTextsAll s.quoted items ++ [(printedOpener inside s).closer.text])
  | n => [write inside n]

def tokenTextsAll (inside : Bool) : List Node → List String
  | [] => []
  | n :: rest => tokenTexts inside n ++ tokenTextsAll inside rest

end

/-- Stamps do not matter for equality. -/
theorem same_withStamp (s : Stamp) (m n : Node) : (m.withStamp s).same n = m.same n := by
  cases m with
  | _ =>
    cases n with
    | _ => rfl

end Node

/-! ## Words -/

/-- A text with nothing in it that ends a word. -/
def IsWord (text : String) : Prop :=
  text.toList ≠ [] ∧ ∀ c ∈ text.toList, Scanner.isWordChar c = true

namespace IsWord

theorem text (n : Number) : IsWord n.text := by
  obtain ⟨k, -, htext⟩ | ⟨k, -, htext⟩ := Number.text_cases n
  · rw [IsWord, htext]
    refine ⟨Nat.toDigits_ne_nil, fun c hc => ?_⟩
    exact Scanner.isWordChar_of_isDigit (Number.isDigit_toDigits hc)
  · rw [IsWord, htext]
    refine ⟨List.cons_ne_nil _ _, fun c hc => ?_⟩
    cases hc with
    | head => decide
    | tail _ hc => exact Scanner.isWordChar_of_isDigit (Number.isDigit_toDigits hc)

theorem boolean (b : Bool) : IsWord (if b then "true" else "false") := by
  cases b with
  | true => simp [IsWord, Scanner.isWordChar, Scanner.isDelimiter]
  | false => simp [IsWord, Scanner.isWordChar, Scanner.isDelimiter]

theorem oneToken {name : String} (h : Token.isOneToken name = true) : IsWord name := by
  unfold Token.isOneToken at h
  split at h
  · cases h
  · next c rest hname =>
    simp only [Bool.and_eq_true, List.all_eq_true] at h
    rw [IsWord, hname]
    exact ⟨List.cons_ne_nil _ _, h.1.1⟩

theorem plainName {name : String} (h : Token.isPlainName name = true) : IsWord name :=
  oneToken (Token.isOneToken_of_isPlainName h)

end IsWord

namespace Scanner

/-- What is read in the characters of a text as a single token is the text. -/
theorem reads_of_toList {text : String} {chars : List Char} (htext : text.toList = chars)
    (h : Reads chars [String.ofList chars]) : Reads text.toList [text] := by
  rw [← htext, String.ofList_toList] at h
  exact h

theorem reads_number (n : Number) : Reads n.text.toList [n.text] := by
  obtain ⟨-, hword⟩ := IsWord.text n
  obtain ⟨k, -, htext⟩ | ⟨k, -, htext⟩ := Number.text_cases n
  · obtain ⟨c, rest, hdigits, -, -⟩ := Number.toDigits_eq_cons k
    refine reads_of_toList (htext.trans hdigits) (Reads.digits fun d hd => ?_)
    rw [← hdigits] at hd
    exact Number.isDigit_toDigits hd
  · refine reads_of_toList htext (Reads.word (by decide) (by decide) ?_)
    rw [← htext]
    exact hword

theorem reads_boolean (b : Bool) :
    Reads (if b then "true" else "false").toList [if b then "true" else "false"] := by
  have hword := (IsWord.boolean b).2
  cases b with
  | true => exact Reads.word (by decide) (by decide) hword
  | false => exact Reads.word (by decide) (by decide) hword

theorem reads_oneToken {name : String} (h : Token.isOneToken name = true) :
    Reads name.toList [name] := by
  unfold Token.isOneToken at h
  split at h
  · cases h
  · next c rest hname =>
    simp only [Bool.and_eq_true, List.all_eq_true, bne_iff_ne, Bool.or_eq_true,
      Bool.not_eq_true'] at h
    obtain ⟨⟨hword, hcomment⟩, hdigits⟩ := h
    refine reads_of_toList hname ?_
    cases hdigit : c.isDigit with
    | false => exact Reads.word hdigit hcomment hword
    | true =>
      have hrest : ∀ d ∈ rest, d.isDigit = true := by simpa [hdigit] using hdigits
      exact Reads.digits (List.forall_mem_cons.2 ⟨hdigit, hrest⟩)

theorem reads_plainName {name : String} (h : Token.isPlainName name = true) :
    Reads name.toList [name] :=
  reads_oneToken (Token.isOneToken_of_isPlainName h)

theorem reads_string {text : String} (h : text.toList.contains '"' = false) :
    Reads ("\"" ++ text ++ "\"").toList ["\"" ++ text ++ "\""] := by
  have hquote : '"' ∉ text.toList := by simpa using h
  have htext : ("\"" ++ text ++ "\"").toList = '"' :: text.toList ++ ['"'] := by simp
  exact reads_of_toList htext (Reads.string hquote)

mutual

/-- The scanner finds the tokens of what prints token by token. -/
theorem reads_tokenwise (inside : Bool) (n : Node) (h : n.isTokenwise = true) :
    Reads (n.write inside).toList (n.tokenTexts inside) := by
  match n with
  | .number _ n => exact reads_number n
  | .boolean _ b => exact reads_boolean b
  | .string _ text => exact reads_string (by simpa [Node.isTokenwise] using h)
  | .identifier _ name => exact reads_oneToken h
  | .list s items =>
    simp only [Node.write, Node.tokenTexts, Node.printedOpener]
    cases s.quoted with
    | true =>
      have hitems := (reads_tokenwiseAll true items h).closed (c := ']') rfl
      cases inside with
      | true => simpa [Opener.text, Opener.closer, Closer.text] using hitems.opened (c := '[') rfl
      | false => simpa [Opener.text, Opener.closer, Closer.text] using hitems.quoted
    | false =>
      have hitems := (reads_tokenwiseAll false items h).closed (c := ')') rfl
      simpa [Opener.text, Opener.closer, Closer.text] using hitems.opened (c := '(') rfl

theorem reads_tokenwiseAll (inside : Bool) (items : List Node)
    (h : Node.areTokenwise items = true) :
    Reads (Node.writeItems inside items).toList (Node.tokenTextsAll inside items) := by
  match items with
  | [] => exact Reads.nil
  | [n] =>
    simp only [Node.areTokenwise, Bool.and_true] at h
    simpa [Node.writeItems, Node.tokenTextsAll] using reads_tokenwise inside n h
  | n :: m :: rest =>
    rw [Node.areTokenwise, Bool.and_eq_true] at h
    have hspace := (reads_tokenwise inside n h.1).space (reads_tokenwiseAll inside (m :: rest) h.2)
    rw [Node.writeItems, Node.tokenTextsAll]
    simpa using hspace

end

/-- The scanner finds the tokens of printed data. -/
theorem reads_write (inside : Bool) (n : Node) (h : n.isPrintable = true) :
    Reads (n.write inside).toList (n.tokenTexts inside) :=
  reads_tokenwise inside n (Node.isTokenwise_of_isPrintable n h)

end Scanner

/-! ## Tokens of data -/

namespace Token

variable {t : Token}

/-- Delimiters end with a delimiter. -/
theorem shape_eq_word {c : Char} (hlast : t.text.toList.getLast? = some c)
    (hc : Scanner.isDelimiter c = false) : t.shape = .word := by
  have hne : ∀ text : String, text.toList.getLast?.any Scanner.isDelimiter = true →
      t.text ≠ text := by
    rintro text htext rfl
    rw [hlast, Option.any_some, hc] at htext
    cases htext
  unfold shape
  split
  case h_10 => rfl
  all_goals
    next heq => exact absurd heq (hne _ (by decide))

theorem shape_of_opener {o : Opener} (h : t.text = o.text) : t.shape = .opener o := by
  cases o with
  | _ => simp [shape, h, Opener.text]

theorem shape_of_closer {k : Closer} (h : t.text = k.text) : t.shape = .closer k := by
  cases k with
  | _ => simp [shape, h, Closer.text]

theorem shape_of_isWord (h : IsWord t.text) : t.shape = .word := by
  obtain ⟨hne, hword⟩ := h
  have hchar := hword _ (List.getLast_mem hne)
  simp only [Scanner.isWordChar, Bool.and_eq_true, Bool.not_eq_true'] at hchar
  exact shape_eq_word (List.getLast?_eq_some_getLast hne) hchar.2

theorem isString_of_isWord (h : IsWord t.text) : t.isString = false := by
  unfold isString
  split
  · next c rest htext =>
    have hquote := h.2 '"' (by rw [htext]; exact List.mem_cons_self)
    exact absurd hquote (by decide)
  · rfl

end Token

namespace Reader

variable {depth : Nat} {t : Token}

theorem atom_number (depth : Nat) {n : Number} (ht : t.text = n.text) :
    ∃ m, atom depth t = .ok (.number { depth := depth } m) ∧ m.value = n.value := by
  obtain ⟨m, hm, hvalue⟩ := Number.ofLiteral?_text n
  have hnumber : t.isNumber = true := by rw [Token.isNumber, ht, Number.isLiteral_text]
  exact ⟨m, by simp [atom, hnumber, ht, hm], hvalue⟩

theorem isNumber_of_quote {text : String} (ht : t.text = "\"" ++ text ++ "\"") :
    t.isNumber = false := by
  simp [Token.isNumber, Number.isLiteral, ht]

theorem isString_of_quote {text : String} (ht : t.text = "\"" ++ text ++ "\"") :
    t.isString = true := by
  have htext : t.text.toList = '"' :: (text.toList ++ ['"']) := by simp [ht]
  unfold Token.isString
  split
  · next c rest heq =>
    rw [htext] at heq
    rw [← (List.cons.inj heq).2]
    simp
  · next hshort =>
    cases hrest : text.toList ++ ['"'] with
    | nil => simp at hrest
    | cons c rest => exact absurd (hrest ▸ htext) (hshort c rest)

theorem atom_string {text : String} (ht : t.text = "\"" ++ text ++ "\"") :
    atom depth t = .ok (.string { depth := depth } text) := by
  have htext : unquoted t.text = text := by simp [unquoted, ht]
  simp [atom, isNumber_of_quote ht, isString_of_quote ht, htext]

theorem atom_boolean {b : Bool} (ht : t.text = if b then "true" else "false") :
    atom depth t = .ok (.boolean { depth := depth } b) := by
  have hstring : t.isString = false := Token.isString_of_isWord (ht ▸ IsWord.boolean b)
  have hnumber : t.isNumber = false := by
    rw [Token.isNumber, ht]
    cases b with
    | true => decide
    | false => decide
  cases b with
  | true => simp [atom, hnumber, hstring, ht]
  | false => simp [atom, hnumber, hstring, ht]

theorem isEscape_of_isPlainName (h : Token.isPlainName t.text = true) : t.isEscape = false := by
  obtain ⟨c, rest, htext, -, -, -, hescape, -⟩ := Token.isPlainName_cases h
  unfold Token.isEscape
  split
  · next heq =>
    rw [htext] at heq
    cases heq
    cases hescape rfl
  · rfl

theorem atom_plainName (h : Token.isPlainName t.text = true) :
    atom depth t = .ok (.identifier { depth := depth } t.text) := by
  have hstring := Token.isString_of_isWord (IsWord.plainName h)
  have hescape := isEscape_of_isPlainName h
  obtain ⟨c, rest, htext, -, -, -, -, hnumber, htrue, hfalse⟩ := Token.isPlainName_cases h
  simp [atom, Token.isNumber, hnumber, hstring, htrue, hfalse, hescape, nameAt]

/-! ## Reading of data -/

/-- Reading gives a node equal to another one and leaves the tokens after it. -/
def Gives {bound : Nat} (outcome : Outcome Node bound) (n : Node) (rest : List Token) : Prop :=
  ∃ p, outcome = .ok p ∧ p.rest = rest ∧ p.value.same n = true

/-- Reading gives items equal to others and leaves the tokens after them. -/
def GivesAll {bound : Nat} (outcome : Outcome (List Node) bound) (ns : List Node)
    (rest : List Token) : Prop :=
  ∃ p, outcome = .ok p ∧ p.rest = rest ∧ Node.sameAll p.value ns = true

variable {c : Context} {o : Opener} {opening : Token} {first : Bool} {n : Node}
  {ns : List Node} {ts after rest : List Token}

theorem items_closed (h : t.shape = .closer o.closer) :
    GivesAll (items c depth o opening true first (t :: rest)) [] rest := by
  rw [items.eq_def]
  simp only [h, if_pos]
  exact ⟨_, rfl, rfl, rfl⟩

theorem items_cons (hshape : t.shape = .word ∨ ∃ o, t.shape = .opener o)
    (hn : Gives (dataElement c depth (t :: ts)) n after)
    (hns : GivesAll (items c depth o opening true false after) ns rest) :
    GivesAll (items c depth o opening true first (t :: ts)) (n :: ns) rest := by
  obtain ⟨⟨m, after, hshorter⟩, hm, rfl, hsame⟩ := hn
  obtain ⟨p, hp, rfl, hsames⟩ := hns
  rw [items.eq_def]
  dsimp only
  split
  · next k hk => simp [hk] at hshape
  · simp only [if_true, hm]
    refine ⟨⟨m :: p.value, p.rest, Nat.lt_trans p.shorter hshorter⟩, ?_, rfl, ?_⟩
    · simp only [bind, Except.bind, hp]
      rfl
    · rw [Node.sameAll, hsame, hsames]
      rfl

theorem dataList_gives (s : Stamp) (hdepth : depth < c.maxDepth)
    (hns : GivesAll (items c (depth + 1) o opening true true ts) ns rest) :
    Gives (dataList c depth o opening ts) (.list s ns) rest := by
  obtain ⟨p, hp, rfl, hsames⟩ := hns
  have hitems : delimited c depth o opening true ts = .ok p := by
    rw [delimited, Context.enter, if_pos hdepth]
    exact hp
  rw [dataList, hitems]
  exact ⟨_, rfl, rfl, hsames⟩

theorem dataElement_opener (ho : o ≠ .brace) (ht : t.text = o.text) :
    dataElement c depth (t :: rest) = dataList c depth o t rest := by
  rw [dataElement.eq_def]
  have hshape := Token.shape_of_opener ht
  cases o with
  | brace => exact absurd rfl ho
  | _ => simp only [hshape]

theorem dataElement_word {m : Node} (ht : t.shape = .word) (hm : atom depth t = .ok m)
    (hsame : m.same n = true) : Gives (dataElement c depth (t :: rest)) n rest := by
  rw [dataElement.eq_def]
  simp only [ht, hm]
  refine ⟨_, rfl, rfl, ?_⟩
  rw [Node.quote, Node.same_withStamp]
  exact hsame

/-- A leaf that prints as one token is a word. -/
theorem shape_of_leaf (hn : n.isTokenwise = true) (hleaf : n.nesting = 0) {inside : Bool}
    (ht : t.text = n.write inside) : t.shape = .word := by
  cases n with
  | number s n => exact Token.shape_of_isWord (ht ▸ IsWord.text n)
  | boolean s b => exact Token.shape_of_isWord (ht ▸ IsWord.boolean b)
  | string s text =>
    have htext : t.text.toList = '"' :: text.toList ++ ['"'] := by simp [ht, Node.write]
    have hlast : t.text.toList.getLast? = some '"' := by rw [htext, List.getLast?_concat]
    exact Token.shape_eq_word hlast (by decide)
  | identifier s name =>
    change t.text = name at ht
    subst ht
    exact Token.shape_of_isWord (IsWord.oneToken hn)
  | list s items => simp [Node.nesting] at hleaf
  | _ => simp [Node.isTokenwise] at hn

/-- A leaf of printed data is a word, and as an atom it is the leaf again. -/
theorem atom_of_leaf (hn : n.isPrintable = true) (hleaf : n.nesting = 0) {inside : Bool}
    (ht : t.text = n.write inside) (depth : Nat) :
    t.shape = .word ∧ ∃ m, atom depth t = .ok m ∧ m.same n = true := by
  refine ⟨shape_of_leaf (Node.isTokenwise_of_isPrintable n hn) hleaf ht, ?_⟩
  cases n with
  | number s n =>
    obtain ⟨m, hm, hvalue⟩ := atom_number depth ht
    exact ⟨_, hm, by simp [Node.same, Number.same, hvalue]⟩
  | boolean s b => exact ⟨_, atom_boolean ht, by simp [Node.same]⟩
  | string s text => exact ⟨_, atom_string ht, by simp [Node.same]⟩
  | identifier s name =>
    change t.text = name at ht
    subst ht
    exact ⟨_, atom_plainName hn, by simp [Node.same]⟩
  | list s items => simp [Node.nesting] at hleaf
  | _ => simp [Node.isPrintable] at hn

theorem printedOpener_ne_brace (inside : Bool) (s : Stamp) :
    Node.printedOpener inside s ≠ .brace := by
  unfold Node.printedOpener
  split
  · split
    · decide
    · decide
  · decide

/-- Tokens of a text between two delimiters, before some rest. -/
theorem delimited_of_map_text {first last : String} {texts : List String}
    (hts : ts.map (·.text) = first :: (texts ++ [last])) :
    ∃ opening us closing, opening.text = first ∧ us.map (·.text) = texts ∧ closing.text = last ∧
      ∀ rest, ts ++ rest = opening :: (us ++ closing :: rest) := by
  obtain ⟨opening, vs, rfl, hopening, hvs⟩ := List.map_eq_cons_iff.1 hts
  obtain ⟨us, ws, rfl, hus, hws⟩ := List.map_eq_append_iff.1 hvs
  obtain ⟨closing, rfl, hclosing⟩ := List.map_eq_singleton_iff.1 hws
  exact ⟨opening, us, closing, hopening, hus, hclosing, fun rest => by simp⟩

/-- What prints token by token starts with a word or an opener. -/
theorem tokenwise_eq_cons (hn : n.isTokenwise = true) {inside : Bool}
    (hts : ts.map (·.text) = n.tokenTexts inside) :
    ∃ t rest, ts = t :: rest ∧ (t.shape = .word ∨ ∃ o, t.shape = .opener o) := by
  match n with
  | .list s items =>
    obtain ⟨t, rest, rfl, ht, -⟩ := List.map_eq_cons_iff.1 hts
    exact ⟨t, rest, rfl, .inr ⟨_, Token.shape_of_opener ht⟩⟩
  | .number .. | .boolean .. | .string .. | .identifier .. =>
    obtain ⟨t, rfl, ht⟩ := List.map_eq_singleton_iff.1 hts
    exact ⟨t, [], rfl, .inl (shape_of_leaf hn rfl ht)⟩
  | .function .. | .operator .. | .command .. | .commandResult .. | .error .. | .rawAst ..
  | .defunc .. => cases hn

/-- The tokens of printed data start with a word or an opener. -/
theorem tokenTexts_eq_cons (hn : n.isPrintable = true) {inside : Bool}
    (hts : ts.map (·.text) = n.tokenTexts inside) :
    ∃ t rest, ts = t :: rest ∧ (t.shape = .word ∨ ∃ o, t.shape = .opener o) :=
  tokenwise_eq_cons (Node.isTokenwise_of_isPrintable n hn) hts

mutual

/-- Tokens of printed data read as data equal to it. -/
theorem dataElement_gives (inside : Bool) (n : Node) (hn : n.isPrintable = true) {depth : Nat}
    (hdepth : depth + n.nesting ≤ c.maxDepth) {ts : List Token}
    (hts : ts.map (·.text) = n.tokenTexts inside) (rest : List Token) :
    Gives (dataElement c depth (ts ++ rest)) n rest := by
  match n with
  | .list s items =>
    rw [Node.nesting] at hdepth
    obtain ⟨t, us, closing, ht, hus, hclosing, htokens⟩ := delimited_of_map_text hts
    rw [htokens, dataElement_opener (printedOpener_ne_brace inside s) ht]
    -- What stands between the delimiters are the items, one level deeper.
    have hinner : depth + 1 + Node.nestingAll items ≤ c.maxDepth := by omega
    refine dataList_gives s (by omega) ?_
    exact items_gives s.quoted items hn hinner hus hclosing t true rest
  | .number .. | .boolean .. | .string .. | .identifier .. =>
    obtain ⟨t, rfl, ht⟩ := List.map_eq_singleton_iff.1 hts
    obtain ⟨hshape, m, hm, hsame⟩ := atom_of_leaf hn rfl ht depth
    exact dataElement_word hshape hm hsame
  | .function .. | .operator .. | .command .. | .commandResult .. | .error .. | .rawAst ..
  | .defunc .. => cases hn

theorem items_gives (inside : Bool) (ns : List Node) (hns : Node.arePrintable ns = true)
    {depth : Nat} (hdepth : depth + Node.nestingAll ns ≤ c.maxDepth) {ts : List Token}
    (hts : ts.map (·.text) = Node.tokenTextsAll inside ns) {o : Opener} {closing : Token}
    (hclosing : closing.text = o.closer.text) (opening : Token) (first : Bool)
    (rest : List Token) :
    GivesAll (items c depth o opening true first (ts ++ closing :: rest)) ns rest := by
  match ns with
  | [] =>
    cases List.map_eq_nil_iff.1 hts
    exact items_closed (Token.shape_of_closer hclosing)
  | n :: ns =>
    rw [Node.arePrintable, Bool.and_eq_true] at hns
    rw [Node.nestingAll] at hdepth
    obtain ⟨us, vs, rfl, hus, hvs⟩ := List.map_eq_append_iff.1 hts
    obtain ⟨t, us, rfl, hshape⟩ := tokenTexts_eq_cons hns.1 hus
    rw [List.append_assoc]
    refine items_cons hshape (dataElement_gives inside n hns.1 (by omega) hus _) ?_
    exact items_gives inside ns hns.2 (by omega) hvs hclosing opening false rest

end

/-! ## Reading of literals -/

theorem statement_eq_element (h : t.isName = false) :
    statement c depth (t :: rest) = element c depth true (t :: rest) := by
  rw [statement.eq_def]
  simp [keyword?_eq_none h, h]

theorem element_word {m : Node} (hname : t.isName = false) (ht : t.shape = .word)
    (hm : atom depth t = .ok m) (hsame : m.same n = true) :
    Gives (element c depth true (t :: rest)) n rest := by
  rw [element.eq_def]
  simp only [ht, keyword?_eq_none hname, hm]
  exact ⟨_, rfl, rfl, hsame⟩

/-- Where it stands alone, quoted data reads as inside other data. -/
theorem element_quoted (ht : t.text = Opener.quotedBracket.text) :
    element c depth true (t :: rest) = dataElement c depth (t :: rest) := by
  rw [dataElement_opener (by decide) ht, element.eq_def]
  simp only [Token.shape_of_opener ht]

/-- A literal is no name. -/
theorem isName_of_literal (hl : n.isLiteral = true) (hleaf : n.nesting = 0) {inside : Bool}
    (ht : t.text = n.write inside) : t.isName = false := by
  cases n with
  | number s n =>
    have hnumber : t.isNumber = true := by rw [Token.isNumber, ht]; exact Number.isLiteral_text n
    simp [Token.isName, hnumber]
  | boolean s b =>
    cases b with
    | true => simp [Token.isName, ht, Node.write]
    | false => simp [Token.isName, ht, Node.write]
  | string s text => simp [Token.isName, isString_of_quote ht]
  | list s items => simp [Node.nesting] at hleaf
  | _ => simp [Node.isLiteral] at hl

theorem isName_of_opener {o : Opener} (h : t.shape = .opener o) : t.isName = false := by
  simp [Token.isName, h]

/-- Tokens of a printed literal read as a statement equal to it. -/
theorem statement_gives (hn : n.isPrintable = true) (hl : n.isLiteral = true)
    (hdepth : n.nesting ≤ c.maxDepth) (hts : ts.map (·.text) = n.tokenTexts false) :
    Gives (statement c 0 ts) n [] := by
  match n with
  | .list s items =>
    change s.quoted = true at hl
    have hopener : Node.printedOpener false s = .quotedBracket := by
      simp [Node.printedOpener, hl]
    have hdepth : 0 + (Node.list s items).nesting ≤ c.maxDepth := by omega
    have hgives := dataElement_gives false (.list s items) hn hdepth hts []
    obtain ⟨t, us, rfl, ht, -⟩ := List.map_eq_cons_iff.1 hts
    rw [hopener] at ht
    have hname := isName_of_opener (Token.shape_of_opener ht)
    rw [statement_eq_element hname, element_quoted ht]
    rw [List.append_nil] at hgives
    exact hgives
  | .number .. | .boolean .. | .string .. =>
    obtain ⟨t, rfl, ht⟩ := List.map_eq_singleton_iff.1 hts
    obtain ⟨hshape, m, hm, hsame⟩ := atom_of_leaf hn rfl ht 0
    have hname := isName_of_literal hl rfl ht
    rw [statement_eq_element hname]
    exact element_word hname hshape hm hsame
  | .identifier .. | .function .. | .operator .. | .command .. | .commandResult .. | .error ..
  | .rawAst .. | .defunc .. => cases hl

/-- A single statement is a whole program. -/
theorem program_gives (hshape : t.shape = .word ∨ ∃ o, t.shape = .opener o)
    (h : Gives (statement c depth (t :: ts)) n []) :
    ∃ m, program c depth (t :: ts) = .ok [m] ∧ m.same n = true := by
  obtain ⟨⟨m, rest, hshorter⟩, hm, rfl, hsame⟩ := h
  have hseparator : t.shape ≠ .separator := by
    rintro ht
    simp [ht] at hshape
  refine ⟨m, ?_, hsame⟩
  rw [program.eq_def]
  dsimp only
  rw [if_neg hseparator, hm]
  change (program c depth [] >>= fun ns => pure (m :: ns)) = _
  rw [program.eq_def]
  rfl

end Reader

/-- **Printed data reads back**, as one node equal to it. -/
theorem parse_display (n : Node) (maxDepth : Nat) (hprintable : n.isPrintable = true)
    (hliteral : n.isLiteral = true) (hnesting : n.nesting ≤ maxDepth) :
    ∃ m, parse n.display maxDepth = .ok [m] ∧ m.same n = true := by
  obtain ⟨tokens, htokens, htexts⟩ :=
    tokenize_of_reads (Scanner.reads_write false n hprintable)
  obtain ⟨t, rest, rfl, hshape⟩ := Reader.tokenTexts_eq_cons hprintable htexts
  obtain ⟨m, hm, hsame⟩ := Reader.program_gives (c := ⟨maxDepth, Reader.lastLine (t :: rest)⟩)
    hshape (Reader.statement_gives hprintable hliteral hnesting htexts)
  refine ⟨m, ?_, hsame⟩
  rw [parse, Node.display, htokens]
  change (Reader.ofTokens (t :: rest) maxDepth).readAll.1 = _
  have hprogram : Reader.program (Reader.ofTokens (t :: rest) maxDepth).context
      (Reader.ofTokens (t :: rest) maxDepth).depth (Reader.ofTokens (t :: rest) maxDepth).rest =
        .ok [m] := hm
  rw [Reader.readAll, hprogram]

/-- Words of either kind at the end of their range, a string with a bracket, a line break and a
comment sign in it, and data inside a call inside data, at the least depth that allows it. -/
theorem parse_display_nested :
    let n : Node := .data [.ofNumber (.uint 18446744073709551615), .ofString "]\n# x",
      .ofBool true, .call [.identifier {} "a#b", .ofInt64 (-9223372036854775808), .data []]]
    n.display = "'[18446744073709551615 \"]\n# x\" true (a#b -9223372036854775808 '[])]" ∧
      ∃ m, parse n.display 3 = .ok [m] ∧ m.same n = true := by
  intro n
  refine ⟨by decide +kernel, parse_display n 3 ?_ rfl ?_⟩
  · decide +kernel
  · decide +kernel

end ExprShell
