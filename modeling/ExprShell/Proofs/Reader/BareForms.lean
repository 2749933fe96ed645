/-
Two ways to write a call and a binding (`readAt_bareForms`). A name with its arguments and a
separator is the call in parentheses, and a binding with `=` and a separator is the call of `let`:
either both are read or none, and as the same node.

For each of the four forms it is shown what they come to: a reading of the arguments, or of the
value, one level deeper. Arguments are the same before a separator and before a closer
(`arguments_exchange`), and so are values (`value_exchange`).
-/
import ExprShell.Proofs.Reader.Arguments
import ExprShell.Proofs.Reader.QuotedList
import ExprShell.Proofs.Reader.Sinking

namespace ExprShell

/-- One word that is no keyword, or one pair of delimiters with what is between them. -/
inductive Token.IsSingle : List Token → Prop where
  | word {t : Token} : t.shape = .word → t.keyword? = none → IsSingle [t]
  | group {opening closing : Token} {inner : List Token} : closing.Closes opening → Nested inner →
    IsSingle (opening :: inner ++ [closing])

theorem Token.IsSingle.keywordFree {ts : List Token} (h : IsSingle ts) : KeywordFree ts := by
  cases h with
  | word hword hkeyword => exact .neutral (.inl hword) hkeyword .nil
  | group hcloses hinner => exact .group hcloses hinner .nil

namespace Reader

open Token (Nested KeywordFree IsSingle)

variable {c : Context} {maxDepth line line' depth : Nat} {nodes : List Node}
  {head opening closing separator word equals name : Token} {args value f f' left : List Token}

/-! ## Calls -/

/-- The arguments start with nothing that leaves the name before them alone. -/
theorem bareArguments_next (hargs : Nested args) (hbar : ∀ t rest, args = t :: rest → t.text ≠ "|")
    (hseparator : separator.shape = .separator) :
    ∃ next rest, args ++ [separator] = next :: rest ∧
      (next.isCloser || next.text == "|") = false := by
  cases args with
  | nil =>
    have hbar : separator.text ≠ "|" := by
      intro htext
      simp [Token.shape, htext] at hseparator
    exact ⟨separator, [], rfl, by simp [Token.isCloser, hseparator, hbar]⟩
  | cons t rest =>
    have hcloser : t.isCloser = false := by
      unfold Token.isCloser
      cases hshape : t.shape with
      | closer k => exact absurd hargs (Nested.nil.not_closer hshape)
      | _ => rfl
    exact ⟨t, rest ++ [separator], rfl, by simp [hcloser, hbar t rest rfl]⟩

theorem runs_bareCall_iff (hname : head.isName = true) (hkeyword : head.keyword? = none)
    (hargs : Nested args) (hbar : ∀ t rest, args = t :: rest → t.text ≠ "|")
    (hseparator : separator.shape = .separator) :
    Runs c (Goal.statement.plan depth) (head :: (args ++ [separator])) (.ok (nodes, [])) ↔
      depth < c.maxDepth ∧ ∃ ns, nodes = [callAt depth (operatorAt (depth + 1) head.text :: ns)] ∧
        Runs c ((Goal.bareArgs head).plan (depth + 1)) (args ++ [separator]) (.ok (ns, [])) := by
  obtain ⟨next, rest, htokens, hnext⟩ := bareArguments_next hargs hbar hseparator
  rw [htokens]
  constructor
  · intro h
    have hplan := h.of_peek
    rw [if_pos hname] at hplan
    have hnamed := hplan.of_shift
    unfold Plan.named at hnamed
    rw [hkeyword] at hnamed
    have hcall := hnamed.of_peek
    rw [hnext] at hcall
    obtain ⟨hdepth, hread⟩ := hcall.of_just.of_deeper
    obtain ⟨ns, left, hns, hgive⟩ := hread.of_read
    cases hgive
    exact ⟨hdepth, ns, rfl, hns⟩
  · intro h
    obtain ⟨hdepth, ns, rfl, hns⟩ := h
    refine .peek ?_
    rw [if_pos hname]
    refine .shift ?_
    unfold Plan.named
    rw [hkeyword]
    refine .peek ?_
    rw [hnext]
    exact .just (.deeper hdepth (.readOk hns .give))

/-- The head of a call in parentheses may be a keyword: it is read as a name there. -/
theorem runs_parenthesized_iff (hname : head.isName = true) (hargs : Nested args)
    (hopening : opening.shape = .opener .paren) (hclosing : closing.shape = .closer .paren) :
    Runs c (Goal.statement.plan depth) (opening :: head :: (args ++ [closing]))
        (.ok (nodes, [])) ↔
      depth < c.maxDepth ∧ ∃ ns, nodes = [callAt depth (operatorAt (depth + 1) head.text :: ns)] ∧
        Runs c ((Goal.items .paren opening false false).plan (depth + 1)) (args ++ [closing])
          (.ok (ns, [])) := by
  have hword := Token.shape_of_isName hname
  have hnoName : opening.isName = false := by
    simp [Token.isName, hopening]
  constructor
  · intro h
    have hlist : Runs c (.listExpression depth .paren opening) (head :: (args ++ [closing]))
        (.ok (nodes, [])) := element_opener_inv hopening ((statement_iff_element hnoName).1 h)
    obtain ⟨hdepth, items, left, hitems, hform⟩ := hlist.of_listExpression
    have hinner : Nested (head :: args) := .neutral (.inl hword) hargs
    obtain ⟨rfl, -⟩ := Runs.within rfl hinner hclosing hitems
    rcases hform with hcall | hfunction
    · obtain ⟨-, -, ns', hns', rfl⟩ := hcall
      obtain ⟨m, ns, after, hm, hns, rfl⟩ := items_cons_inv (fun k => by simp [hword]) hitems
      obtain ⟨rfl, n, hn, hm⟩ := element_word_inv hword (.inr rfl) hm
      rw [atom_of_isName hname] at hn
      cases hn
      cases hm
      cases hns'
      exact ⟨hdepth, ns, rfl, hns⟩
    · obtain ⟨arrow, body, -, -, hleft, -⟩ := hfunction
      cases hleft
  · intro h
    obtain ⟨hdepth, ns, rfl, hns⟩ := h
    have hhead : Runs c ((Goal.element false).plan (depth + 1)) (head :: (args ++ [closing]))
        (.ok ([nameAt (depth + 1) head.text], args ++ [closing])) :=
      runs_word hword (.inr rfl) (atom_of_isName hname)
    have hitems : Runs c ((Goal.items .paren opening false true).plan (depth + 1))
        (head :: (args ++ [closing])) (.ok (nameAt (depth + 1) head.text :: ns, [])) :=
      runs_items_cons (fun k => by simp [hword]) hhead hns
    exact runs_statement hnoName (runs_opened hopening (runs_call hdepth hitems rfl .nil))

theorem bareCall_iff_call (hname : head.isName = true) (hkeyword : head.keyword? = none)
    (hargs : KeywordFree args) (hbar : ∀ t rest, args = t :: rest → t.text ≠ "|")
    (hseparator : separator.shape = .separator) (hopening : opening.shape = .opener .paren)
    (hclosing : closing.shape = .closer .paren) :
    Runs ⟨maxDepth, line⟩ (Goal.statement.plan depth) (head :: (args ++ [separator]))
        (.ok (nodes, [])) ↔
      Runs ⟨maxDepth, line⟩ (Goal.statement.plan depth) (opening :: head :: (args ++ [closing]))
        (.ok (nodes, [])) := by
  have hbare := readsUpTo_separator head hseparator
  have hitems : ReadsUpTo (.items .paren opening false false) true closing :=
    readsUpTo_closer opening hclosing
  rw [runs_bareCall_iff hname hkeyword hargs.nested hbar hseparator,
    runs_parenthesized_iff hname hargs.nested hopening hclosing]
  constructor
  · intro h
    obtain ⟨hdepth, ns, hnodes, hns⟩ := h
    exact ⟨hdepth, ns, hnodes, arguments_exchange hbare hitems hargs hns⟩
  · intro h
    obtain ⟨hdepth, ns, hnodes, hns⟩ := h
    exact ⟨hdepth, ns, hnodes, arguments_exchange hitems hbare hargs hns⟩

/-! ## Bindings -/

/-- A value is read by itself. -/
theorem value_exchange (hvalue : IsSingle value) (hf : EndsElements f)
    (h : Runs ⟨maxDepth, line⟩ ((Goal.element true).plan depth) (value ++ f) (.ok (nodes, left))) :
    left = f ∧ ∀ line' f', EndsElements f' →
      Runs ⟨maxDepth, line'⟩ ((Goal.element true).plan depth) (value ++ f') (.ok (nodes, f')) := by
  cases hvalue with
  | word hword hkeyword =>
    obtain ⟨rfl, m, hm, rfl⟩ := element_word_inv hword (.inl hkeyword) h
    exact ⟨rfl, fun line' f' _ => runs_word hword (.inl hkeyword) hm⟩
  | @group opening closing inner hcloses hinner =>
    obtain ⟨o, hopening, hclosing⟩ := hcloses
    simp only [List.append_assoc, List.cons_append] at h ⊢
    have hopened : ∀ line' f', EndsElements f' → left = f ∧
        Runs ⟨maxDepth, line'⟩ (.opened depth opening o) (inner ++ closing :: f')
          (.ok (nodes, f')) := by
      intro line' f' hf'
      have hexchanges : Exchanges ⟨maxDepth, line'⟩ (.opened depth opening o) [] f f'
          (inner ++ closing :: f') nodes left := exchanges_opened hinner hclosing .nil hf hf'
        (exchangesBelow hf hf' _) (element_opener_inv hopening h)
      obtain ⟨us, -, hsuffix, hleft, hruns⟩ := hexchanges
      cases List.suffix_nil.1 hsuffix
      exact ⟨hleft, hruns⟩
    refine ⟨(hopened line f hf).1, fun line' f' hf' => ?_⟩
    exact runs_opened hopening (hopened line' f' hf').2

/-- Outside of bindings a name stands for itself at the end of the input. -/
theorem element_of_statement (hvalue : IsSingle value)
    (h : Runs c (Goal.statement.plan depth) value (.ok (nodes, []))) :
    Runs c ((Goal.element true).plan depth) value (.ok (nodes, [])) := by
  cases hvalue with
  | @word t hword hkeyword =>
    cases hname : t.isName with
    | false => exact (statement_iff_element hname).1 h
    | true =>
      have hplan := h.of_peek
      rw [if_pos hname] at hplan
      have hnamed := hplan.of_shift
      unfold Plan.named at hnamed
      rw [hkeyword] at hnamed
      cases hnamed with
      | peekEnd hgive =>
        cases hgive
        exact runs_word hword (.inl hkeyword) (atom_of_isName hname)
  | group hcloses hinner =>
    obtain ⟨o, hopening, -⟩ := hcloses
    exact (statement_iff_element (by simp [Token.isName, hopening])).1 h

/-- Before a separator the value of a binding is an element. -/
theorem letValue_iff_element {keyword : Token} (hvalue : IsSingle value)
    (hseparator : separator.shape = .separator) :
    Runs c ((Goal.letValue keyword).plan depth) (value ++ [separator]) (.ok (nodes, left)) ↔
      Runs c ((Goal.element true).plan depth) (value ++ [separator]) (.ok (nodes, left)) := by
  have hnoName : ∀ t ts, t.isName = false →
      (Runs c ((Goal.letValue keyword).plan depth) (t :: ts) (.ok (nodes, left)) ↔
        Runs c ((Goal.element true).plan depth) (t :: ts) (.ok (nodes, left))) := by
    intro t ts ht
    refine (letValue_iff_statement fun hname => ?_).trans (statement_iff_element ht)
    rw [ht] at hname
    cases hname
  cases hvalue with
  | @word t hword hkeyword =>
    cases hname : t.isName with
    | false => exact hnoName t [separator] hname
    | true =>
      have hvalue : Runs c ((Goal.letValue keyword).plan depth) [t, separator]
          (.ok ([nameAt depth t.text], [separator])) := by
        refine .peek ?_
        rw [if_pos hname]
        refine .shift (.peek ?_)
        rw [if_pos hseparator]
        exact .give
      have helement : Runs c ((Goal.element true).plan depth) [t, separator]
          (.ok ([nameAt depth t.text], [separator])) :=
        runs_word hword (.inl hkeyword) (atom_of_isName hname)
      constructor
      · intro h
        cases h.unique hvalue
        exact helement
      · intro h
        cases h.unique helement
        exact hvalue
  | group hcloses hinner =>
    obtain ⟨o, hopening, -⟩ := hcloses
    exact hnoName _ _ (by simp [Token.isName, hopening])

theorem runs_binding_iff (hword : word.text = "let") (hname : name.isName = true)
    (hglobal : name.text ≠ "global") (hequals : equals.text = "=") (hvalue : IsSingle value)
    (hseparator : separator.shape = .separator) :
    Runs c (Goal.statement.plan depth) (word :: name :: equals :: (value ++ [separator]))
        (.ok (nodes, [])) ↔
      depth < c.maxDepth ∧
        ∃ ns, nodes = [callAt depth (Plan.boundItems (depth + 1) false name.text ns)] ∧
          Runs c ((Goal.element true).plan (depth + 1)) (value ++ [separator])
            (.ok (ns, [separator])) := by
  have hlet : word.isName = true ∧ word.keyword? = some .letWord := by
    simp [Token.isName, Token.shape, Token.isString, Token.isNumber, Token.isEscape,
      Number.isLiteral, Token.keyword?, hword]
  have hnoGlobal : (name.text == "global") = false := by simp [hglobal]
  obtain ⟨maxDepth, line⟩ := c
  constructor
  · intro h
    have hplan := h.of_peek
    rw [if_pos hlet.1] at hplan
    have hnamed := hplan.of_shift
    unfold Plan.named at hnamed
    rw [hlet.2] at hnamed
    have hform := hnamed.of_just.of_peek
    rw [hnoGlobal] at hform
    have hletName := Runs.of_peek hform
    rw [if_pos hname] at hletName
    obtain ⟨eq, us, ns, after, htokens, -, hdepth, hns, hend⟩ := hletName.of_shift.of_letEquals
    cases htokens
    have helement := (letValue_iff_element hvalue hseparator).1 hns
    obtain ⟨rfl, -⟩ := value_exchange hvalue (.separator hseparator) helement
    obtain ⟨rfl, -⟩ := hend.of_letEnd
    exact ⟨hdepth, ns, rfl, helement⟩
  · intro h
    obtain ⟨hdepth, ns, rfl, helement⟩ := h
    refine .peek ?_
    rw [if_pos hlet.1]
    refine .shift ?_
    unfold Plan.named
    rw [hlet.2]
    refine .just (.peek ?_)
    rw [hnoGlobal]
    refine .peek ?_
    rw [if_pos hname]
    refine .shift (runs_letEquals hequals hdepth ?_ (runs_letEnd_separator hseparator))
    exact (letValue_iff_element hvalue hseparator).2 helement

/-- The items of a binding in parentheses, after the word that starts it. -/
theorem runs_bindingItems_iff (hname : name.isName = true) (hkeyword : name.keyword? = none)
    (hvalue : IsSingle value) (hclosing : closing.shape = .closer .paren) :
    Runs c ((Goal.items .paren opening false false).plan depth) (name :: (value ++ [closing]))
        (.ok (nodes, [])) ↔
      ∃ ns, nodes = nameAt depth name.text :: ns ∧
        Runs c ((Goal.element true).plan depth) (value ++ [closing]) (.ok (ns, [closing])) := by
  have hword := Token.shape_of_isName hname
  have hstart : ∃ t us, value ++ [closing] = t :: us ∧ ∀ k, t.shape ≠ .closer k := by
    cases hvalue with
    | @word t hword _ => exact ⟨t, [closing], rfl, fun k => by simp [hword]⟩
    | @group opening closing inner hcloses _ =>
      obtain ⟨o, hopening, -⟩ := hcloses
      exact ⟨opening, _, rfl, fun k => by simp [hopening]⟩
  obtain ⟨t, us, htokens, ht⟩ := hstart
  obtain ⟨maxDepth, line⟩ := c
  constructor
  · intro h
    obtain ⟨m, others, middle, hm, hothers, rfl⟩ := items_cons_inv (fun k => by simp [hword]) h
    obtain ⟨rfl, n, hn, hm⟩ := element_word_inv hword (.inl hkeyword) hm
    rw [atom_of_isName hname] at hn
    cases hn
    cases hm
    rw [htokens] at hothers
    obtain ⟨v, rest, after, hv, hrest, rfl⟩ := items_cons_inv ht hothers
    rw [← htokens] at hv
    obtain ⟨rfl, -⟩ := value_exchange hvalue (.closer hclosing) hv
    obtain ⟨-, rfl⟩ := items_closed_inv hclosing hrest
    exact ⟨[v], rfl, hv⟩
  · intro h
    obtain ⟨ns, rfl, hv⟩ := h
    obtain ⟨v, rfl⟩ := single_eq_ok (runs_iff.1 hv)
    have hrest : Runs ⟨maxDepth, line⟩ ((Goal.items .paren opening false false).plan depth)
        (value ++ [closing]) (.ok ([v], [])) := by
      rw [htokens] at hv ⊢
      exact runs_items_cons ht hv (runs_items_closed hclosing)
    have hfirst : Runs ⟨maxDepth, line⟩ ((Goal.element true).plan depth)
        (name :: (value ++ [closing])) (.ok ([nameAt depth name.text], value ++ [closing])) :=
      runs_word hword (.inl hkeyword) (atom_of_isName hname)
    exact runs_items_cons (fun k => by simp [hword]) hfirst hrest

theorem binding_iff_call (hword : word.text = "let") (hname : name.isName = true)
    (hkeyword : name.keyword? = none) (hglobal : name.text ≠ "global") (hequals : equals.text = "=")
    (hvalue : IsSingle value) (hseparator : separator.shape = .separator)
    (hopening : opening.shape = .opener .paren) (hclosing : closing.shape = .closer .paren) :
    Runs ⟨maxDepth, line⟩ (Goal.statement.plan depth)
        (word :: name :: equals :: (value ++ [separator])) (.ok (nodes, [])) ↔
      Runs ⟨maxDepth, line⟩ (Goal.statement.plan depth)
        (opening :: word :: name :: (value ++ [closing])) (.ok (nodes, [])) := by
  have hlet : word.isName = true := by
    simp [Token.isName, Token.shape, Token.isString, Token.isNumber, Token.isEscape,
      Number.isLiteral, hword]
  have hargs : Nested (name :: value) :=
    .neutral (.inl (Token.shape_of_isName hname)) hvalue.keywordFree.nested
  rw [runs_binding_iff hword hname hglobal hequals hvalue hseparator]
  refine Iff.trans ?_ (runs_parenthesized_iff hlet hargs hopening hclosing).symm
  rw [hword, List.cons_append]
  constructor
  · intro h
    obtain ⟨hdepth, ns, rfl, hns⟩ := h
    obtain ⟨-, hexchange⟩ := value_exchange hvalue (.separator hseparator) hns
    refine ⟨hdepth, nameAt (depth + 1) name.text :: ns, rfl, ?_⟩
    rw [runs_bindingItems_iff hname hkeyword hvalue hclosing]
    exact ⟨ns, rfl, hexchange line [closing] (.closer hclosing)⟩
  · intro h
    obtain ⟨hdepth, items, rfl, hitems⟩ := h
    rw [runs_bindingItems_iff hname hkeyword hvalue hclosing] at hitems
    obtain ⟨ns, rfl, hns⟩ := hitems
    obtain ⟨-, hexchange⟩ := value_exchange hvalue (.closer hclosing) hns
    exact ⟨hdepth, ns, rfl, hexchange line [separator] (.separator hseparator)⟩

/-! ## Whole forms -/

/-- The tokens are read as this node, from the first to the last of them. -/
def ReadsAs (maxDepth : Nat) (tokens : List Token) (n : Node) : Prop :=
  ∃ located, ((ofTokens tokens maxDepth).readAt 0).1 = .ok located ∧ located.node = n ∧
    located.endIndex + 1 = tokens.length

theorem readsAs_iff {tokens : List Token} {n : Node} (line : Nat) :
    ReadsAs maxDepth tokens n ↔
      Runs ⟨maxDepth, line⟩ (Goal.statement.plan 0) tokens (.ok ([n], [])) := by
  constructor
  · intro h
    obtain ⟨located, hlocated, hnode, hend⟩ := h
    obtain ⟨rest, hruns, hindex⟩ := readAt_eq_ok_iff.1 ⟨located, hlocated, hnode, rfl⟩
    have hshorter : rest.length < tokens.length := single_shorter (runs_iff.1 hruns)
    have hlength : tokens.length - rest.length - 1 = located.endIndex := hindex
    have hnil : rest = [] := List.eq_nil_of_length_eq_zero (by omega)
    subst hnil
    exact hruns.anyLine rfl
  · intro h
    have hshorter := single_shorter (runs_iff.1 h)
    have hruns : Runs (ofTokens tokens maxDepth).context (Goal.statement.plan 0)
        ((ofTokens tokens maxDepth).tokens.drop 0) (.ok ([n], [])) := h.anyLine rfl
    obtain ⟨located, hlocated, hnode, hindex⟩ := readAt_eq_ok_iff.2 ⟨[], hruns, rfl⟩
    have hlength : located.endIndex = tokens.length - 0 - 1 := hindex
    refine ⟨located, hlocated, hnode, ?_⟩
    rw [hlength]
    simp only [List.length_nil] at hshorter
    omega

/-- **Bare calls and bindings are another way to write calls.** A name with balanced arguments that
have no keyword outside of delimiters, up to a separator, is read as a node exactly if the call in
parentheses is read as this node. A binding of a name to a single value, up to a separator, is read
as a node exactly if the call of `let` in parentheses is; and where the value is read by itself,
both are read under a bound that allows one level more, as the binding of what was read. -/
theorem readAt_bareForms (maxDepth : Nat) {name : Token} (hname : name.isName = true)
    (hkeyword : name.keyword? = none) (l₁ l₂ l₃ l₄ l₅ : Nat) :
    (∀ args, KeywordFree args → (∀ t rest, args = t :: rest → t.text ≠ "|") → ∀ n,
      ReadsAs maxDepth (name :: (args ++ [⟨";", l₁⟩])) n ↔
        ReadsAs maxDepth (⟨"(", l₂⟩ :: name :: (args ++ [⟨")", l₃⟩])) n) ∧
    (name.text ≠ "global" → ∀ value, IsSingle value →
      (∀ n, ReadsAs maxDepth (⟨"let", l₄⟩ :: name :: ⟨"=", l₅⟩ :: (value ++ [⟨";", l₁⟩])) n ↔
        ReadsAs maxDepth (⟨"(", l₂⟩ :: ⟨"let", l₄⟩ :: name :: (value ++ [⟨")", l₃⟩])) n) ∧
      ∀ v, ReadsAs maxDepth value v →
        let n := callAt 0 (letItems 1 false name.text v.sunk)
        ReadsAs (maxDepth + 1) (⟨"let", l₄⟩ :: name :: ⟨"=", l₅⟩ :: (value ++ [⟨";", l₁⟩])) n ∧
        ReadsAs (maxDepth + 1) (⟨"(", l₂⟩ :: ⟨"let", l₄⟩ :: name :: (value ++ [⟨")", l₃⟩])) n) := by
  constructor
  · intro args hargs hbar n
    rw [readsAs_iff 0, readsAs_iff 0]
    exact bareCall_iff_call hname hkeyword hargs hbar rfl rfl rfl
  · intro hglobal value hvalue
    constructor
    · intro n
      rw [readsAs_iff 0, readsAs_iff 0]
      exact binding_iff_call rfl hname hkeyword hglobal rfl hvalue rfl rfl rfl
    · intro v hv n
      rw [readsAs_iff 0] at hv
      have helement := element_of_statement hvalue hv
      have hdeeper := helement.sink rfl ((Goal.element true).sinks_plan 0)
      rw [← List.append_nil value] at hdeeper
      obtain ⟨-, hexchange⟩ := value_exchange hvalue .nil hdeeper
      have hbinding : Runs ⟨maxDepth + 1, 0⟩ (Goal.statement.plan 0)
          (⟨"let", l₄⟩ :: name :: ⟨"=", l₅⟩ :: (value ++ [⟨";", l₁⟩])) (.ok ([n], [])) := by
        rw [runs_binding_iff rfl hname hglobal rfl hvalue rfl]
        exact ⟨Nat.succ_pos _, [v.sunk], rfl, hexchange 0 _ (.separator rfl)⟩
      rw [readsAs_iff 0, readsAs_iff 0]
      refine ⟨hbinding, ?_⟩
      exact (binding_iff_call rfl hname hkeyword hglobal rfl hvalue rfl rfl rfl).1 hbinding

/-- A call with a function that binds a name in its body, and the binding of a block. -/
theorem readAt_bareForms_function :
    let body : List Token := [⟨"let", 1⟩, ⟨"y", 1⟩, ⟨"=", 1⟩, ⟨"x", 1⟩, ⟨";", 1⟩, ⟨"y", 1⟩]
    let args : List Token := ⟨"(", 1⟩ :: [⟨"x", 1⟩] ++ ⟨")", 1⟩ :: ⟨"=>", 1⟩ ::
      (⟨"\x7b", 1⟩ :: body ++ ⟨"\x7d", 1⟩ :: [])
    let value : List Token := ⟨"\x7b", 1⟩ :: [⟨"x", 1⟩] ++ [⟨"\x7d", 1⟩]
    let call := callAt 0 [operatorAt 1 "f", .function { depth := 1 } ["x"]
      [callAt 2 [operatorAt 3 "let", nameAt 3 "y", nameAt 3 "x"], nameAt 2 "y"]]
    let binding := callAt 0 [operatorAt 1 "let", nameAt 1 "f",
      callAt 1 [operatorAt 2 "do", nameAt 2 "x"]]
    (KeywordFree args ∧ ReadsAs 3 (⟨"f", 1⟩ :: (args ++ [⟨";", 1⟩])) call ∧
      ReadsAs 3 (⟨"(", 1⟩ :: ⟨"f", 1⟩ :: (args ++ [⟨")", 1⟩])) call) ∧
    IsSingle value ∧
      ReadsAs 2 (⟨"let", 1⟩ :: ⟨"f", 1⟩ :: ⟨"=", 1⟩ :: (value ++ [⟨";", 1⟩])) binding ∧
      ReadsAs 2 (⟨"(", 1⟩ :: ⟨"let", 1⟩ :: ⟨"f", 1⟩ :: (value ++ [⟨")", 1⟩])) binding := by
  intro body args value call binding
  have hbody : Nested body := Token.nested_iff.2 rfl
  have hargs : KeywordFree args := by
    refine .group ⟨.paren, rfl, rfl⟩ (.neutral (.inl rfl) .nil) (.neutral (.inl rfl) rfl ?_)
    exact .group ⟨.brace, rfl, rfl⟩ hbody .nil
  have hvalue : IsSingle value := .group ⟨.brace, rfl, rfl⟩ (.neutral (.inl rfl) .nil)
  have hbar : ∀ t rest, args = t :: rest → t.text ≠ "|" := by
    intro t rest heq
    have hhead : ⟨"(", 1⟩ = t := (List.cons.inj heq).1
    rw [← hhead]
    decide
  have hlet : Runs ⟨3, 1⟩ (Goal.statement.plan 2) (body ++ [⟨"\x7d", 1⟩, ⟨";", 1⟩])
      (.ok ([callAt 2 [operatorAt 3 "let", nameAt 3 "y", nameAt 3 "x"]],
        [⟨"y", 1⟩, ⟨"\x7d", 1⟩, ⟨";", 1⟩])) := by
    refine .peek (.shift (.just (.peek (.peek (.shift ?_)))))
    exact runs_letEquals rfl (by decide) (.peek (.shift (.peek .give))) (runs_letEnd_separator rfl)
  have hlast : Runs ⟨3, 1⟩ ((Goal.statements ⟨"\x7b", 1⟩).plan 2)
      [⟨"y", 1⟩, ⟨"\x7d", 1⟩, ⟨";", 1⟩] (.ok ([nameAt 2 "y"], [⟨";", 1⟩])) :=
    .peek (.readOk (.peek (.shift (.peek .give))) (.readOk (.peek (.shift .give)) .give))
  have hstatements : Runs ⟨3, 1⟩ ((Goal.statements ⟨"\x7b", 1⟩).plan 2)
      (body ++ [⟨"\x7d", 1⟩, ⟨";", 1⟩])
      (.ok ([callAt 2 [operatorAt 3 "let", nameAt 3 "y", nameAt 3 "x"], nameAt 2 "y"],
        [⟨";", 1⟩])) :=
    .peek (.readOk hlet (.readOk hlast .give))
  have hfunction : Runs ⟨3, 1⟩ ((Goal.element false).plan 1) (args ++ [⟨";", 1⟩])
      (.ok ([.function { depth := 1 } ["x"]
        [callAt 2 [operatorAt 3 "let", nameAt 3 "y", nameAt 3 "x"], nameAt 2 "y"]],
        [⟨";", 1⟩])) := by
    have hparams : Runs ⟨3, 1⟩ ((Goal.items .paren ⟨"(", 1⟩ false true).plan 2)
        ([⟨"x", 1⟩] ++ ⟨")", 1⟩ :: ⟨"=>", 1⟩ :: ⟨"\x7b", 1⟩ :: (body ++ [⟨"\x7d", 1⟩, ⟨";", 1⟩]))
        (.ok ([nameAt 2 "x"], ⟨"=>", 1⟩ :: ⟨"\x7b", 1⟩ :: (body ++ [⟨"\x7d", 1⟩, ⟨";", 1⟩]))) :=
      .peek (.readOk (.peek (.shift .give)) (.readOk (.peek (.shift .give)) .give))
    have hlist := runs_function (by decide) hparams rfl rfl
      (.peek (.shift (.deeper (by decide) (.readOk hstatements .give))))
    exact runs_opened (o := .paren) rfl hlist
  have hcall : ReadsAs 3 (⟨"f", 1⟩ :: (args ++ [⟨";", 1⟩])) call := by
    rw [readsAs_iff 1]
    refine .peek (.shift (.peek (.just (.deeper (by decide) (.readOk ?_ .give)))))
    exact .peek (.readOk hfunction (.readOk (.peek (.shift .give)) .give))
  have hblock : ReadsAs 1 value (callAt 0 [operatorAt 1 "do", nameAt 1 "x"]) := by
    rw [readsAs_iff 1]
    refine .peek (.just (.peek (.shift (.deeper (by decide) (.readOk ?_ .give)))))
    exact .peek (.readOk (.peek (.shift (.peek .give))) (.readOk (.peek (.shift .give)) .give))
  have hname : (⟨"f", 1⟩ : Token).isName = true := rfl
  obtain ⟨hcalls, -⟩ := readAt_bareForms 3 hname rfl 1 1 1 1 1
  obtain ⟨-, hbindings⟩ := readAt_bareForms 1 hname rfl 1 1 1 1 1
  exact ⟨⟨hargs, hcall, (hcalls args hargs hbar call).1 hcall⟩, hvalue,
    (hbindings (by decide) value hvalue).2 _ hblock⟩

end Reader

end ExprShell
