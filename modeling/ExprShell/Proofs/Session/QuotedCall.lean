/-
A call and the list it becomes when its opener is quoted (`Session.quoted_call`). Both are read from
the same tokens, by the rules for code and by those for data. Argument by argument the code is the
expression that the data stands for (`Reader.arguments_read`), so turning the list back into an
expression gives the call, and `eval` of the list evaluates the call.
-/
import ExprShell.Proofs.Reader.QuotedList
import ExprShell.Proofs.Session.ParsedCode

namespace ExprShell

/-! ## Tokens of calls -/

namespace Token

/-- The word stands for itself as the argument of a call: it is a literal in range, or a name that
is no keyword and no arrow. -/
def IsArgument (t : Token) : Prop :=
  (t.isNumber = true ∧ Number.minSigned ≤ Number.literalValue t.text ∧
    Number.literalValue t.text ≤ Number.maxUnsigned) ∨
  t.isString = true ∨ (∃ b : Bool, t.text = if b then "true" else "false") ∨
  (t.isName = true ∧ t.text ∉ ["let", "match", "cond", "=>"])

/-- The tokens are arguments: words, and calls of names with arguments of their own. -/
inductive AreArguments : List Token → Prop where
  | nil : AreArguments []
  | word {t : Token} {ts : List Token} : t.IsArgument → AreArguments ts → AreArguments (t :: ts)
  | call {o : Opener} {opening head closing : Token} {args ts : List Token} :
    (o = .paren ∨ o = .bracket) → opening.text = o.text → head.isName = true →
    AreArguments args → closing.text = o.closer.text → AreArguments ts →
    AreArguments (opening :: head :: args ++ closing :: ts)

end Token

namespace Reader

variable {c : Context} {depth : Nat} {o : Opener} {t opening head closing : Token}
  {keywords : Bool} {ns : List Node} {args ts rest : List Token}

/-- An argument is a word that is the same in code and, without its quote, in data. -/
theorem argument_read (h : t.IsArgument) (depth : Nat) :
    t.shape = .word ∧ t.keyword? = none ∧ t.text ≠ "=>" ∧
      ∃ n, atom depth t = .ok n ∧ n.quote.toExpression = n := by
  obtain ⟨hnumber, hrange⟩ | hstring | ⟨b, hboolean⟩ | ⟨hname, htext⟩ := h
  · have hname : t.isName = false := by simp [Token.isName, hnumber]
    obtain ⟨x, hx⟩ := Number.exists_ofLiteral?_iff.2 hrange
    exact ⟨shape_of_isNumber hnumber, keyword?_eq_none hname, text_ne_arrow hname, _,
      atom_of_literal hnumber hx, rfl⟩
  · have hname : t.isName = false := by simp [Token.isName, hstring]
    obtain ⟨text, htext⟩ := exists_of_isString hstring
    have hword : t.Denotes depth (.string { depth := depth, quoted := true } text) := .string htext
    exact ⟨(atom_of_denotes hword).1, keyword?_eq_none hname, text_ne_arrow hname, _,
      atom_string htext, rfl⟩
  · have hname : t.isName = false := by
      cases b with
      | _ => simp [Token.isName, hboolean]
    exact ⟨Token.shape_of_isWord (hboolean ▸ IsWord.boolean b), keyword?_eq_none hname,
      text_ne_arrow hname, _, atom_boolean hboolean, rfl⟩
  · have hkeyword : t.keyword? = none := by
      cases hk : t.keyword? with
      | none => rfl
      | some k =>
        rw [text_of_keyword? hk] at htext
        cases k with
        | _ => simp [Keyword.text] at htext
    have harrow : t.text ≠ "=>" := by
      intro harrow
      simp [harrow] at htext
    exact ⟨Token.shape_of_isName hname, hkeyword, harrow, _, atom_of_isName hname, rfl⟩

/-- No arrow stands among arguments, nor after them. -/
theorem noArrow_arguments (h : Token.AreArguments ts) {k : Closer}
    (hclosing : closing.shape = .closer k) : NoArrow (ts ++ closing :: rest) := by
  cases h with
  | nil => exact .cons (text_ne_arrow (by simp [Token.isName, hclosing]))
  | word hword _ => exact .cons (argument_read hword 0).2.2.1
  | call _ hopening _ _ _ _ =>
    exact .cons (text_ne_arrow (isName_of_opener (Token.shape_of_opener hopening)))

/-- The list that a call becomes when it is quoted. -/
def quotedCall (depth : Nat) (head : Token) (args : List Node) : Node :=
  .list { depth := depth, quoted := true }
    (.identifier { depth := depth + 1, quoted := true } head.text :: args)

/-- The tokens are read as code, in a call, and this is what some data stands for. -/
def ReadsArguments (depth : Nat) (ts : List Token) (ns : List Node) : Prop :=
  ∀ {c : Context} {o : Opener} {opening closing : Token} {rest : List Token},
    depth + Node.nestingAll ns ≤ c.maxDepth → closing.shape = .closer o.closer →
      Runs c ((Goal.items o opening false false).plan depth) (ts ++ closing :: rest)
        (.ok (Node.toExpressions ns, rest))

/-- A call is read as the expression that the quoted list stands for. -/
theorem call_read (ho : o = .paren ∨ o = .bracket) (hopening : opening.text = o.text)
    (hhead : head.isName = true) (hargs : ReadsArguments (depth + 1) args ns)
    (hclosing : closing.text = o.closer.text)
    (hnesting : depth + (quotedCall depth head ns).nesting ≤ c.maxDepth) (hrest : NoArrow rest) :
    Runs c ((Goal.element keywords).plan depth) (opening :: head :: args ++ closing :: rest)
      (.ok ([(quotedCall depth head ns).toExpression], rest)) := by
  have hshape := Token.shape_of_isName hhead
  have hbound : depth + 1 + Node.nestingAll ns ≤ c.maxDepth := by
    simp only [quotedCall, Node.nesting, Node.nestingAll] at hnesting
    omega
  have hitems : Runs c ((Goal.items o opening false true).plan (depth + 1))
      (head :: (args ++ closing :: rest))
      (.ok (nameAt (depth + 1) head.text :: Node.toExpressions ns, rest)) :=
    runs_items_cons (fun k => by simp [hshape]) (runs_word hshape (.inr rfl) (atom_of_isName hhead))
      (hargs hbound (Token.shape_of_closer hclosing))
  have hcall := runs_call (by omega) hitems rfl hrest
  refine runs_opened (Token.shape_of_opener hopening) ?_
  obtain rfl | rfl := ho
  · exact hcall
  · exact hcall

/-- Arguments spell data, and as code they are read as the expressions that it stands for. -/
theorem arguments_read (h : Token.AreArguments ts) (depth : Nat) :
    ∃ ns, Spells depth ts ns ∧ ReadsArguments depth ts ns := by
  induction h generalizing depth with
  | nil => exact ⟨[], .nil, fun _ hclosing => runs_items_closed hclosing⟩
  | word hword _ ih =>
    obtain ⟨hshape, hkeyword, -, n, hatom, hn⟩ := argument_read hword depth
    obtain ⟨ns, hns, hread⟩ := ih depth
    refine ⟨n.quote :: ns, .word (denotes_of_atom hshape hatom) hns, fun hnesting hclosing => ?_⟩
    rw [Node.nestingAll] at hnesting
    rw [Node.toExpressions, hn]
    exact runs_items_cons (fun k => by simp [hshape]) (runs_word hshape (.inl hkeyword) hatom)
      (hread (by omega) hclosing)
  | @call o _ head _ _ _ ho hopening hhead _ hclosing hts ihargs ih =>
    obtain ⟨args, hargs, hreadArgs⟩ := ihargs (depth + 1)
    obtain ⟨ns, hns, hread⟩ := ih depth
    have hopener := Token.shape_of_opener hopening
    have hcall : Spells (depth + 1) (head :: _) (_ :: args) := .word (.name hhead) hargs
    refine ⟨quotedCall depth head args :: ns, .list (ne_brace_of_code ho) hopener
      (Token.shape_of_closer hclosing) hcall hns, fun hnesting hclosing' => ?_⟩
    rw [Node.nestingAll] at hnesting
    rw [List.append_assoc, Node.toExpressions]
    refine runs_items_cons (fun k => by simp [hopener]) (call_read ho hopening hhead hreadArgs
      hclosing (by omega) ?_) (hread (by omega) hclosing')
    exact noArrow_arguments hts hclosing'

/-- What is read as one statement is the whole program. -/
theorem readAll_statement {bound : Nat} {n : Node} (hopening : opening.shape = .opener o)
    (h : Runs ⟨bound, lastLine (opening :: ts)⟩ (Goal.statement.plan 0) (opening :: ts)
      (.ok ([n], []))) : (ofTokens (opening :: ts) bound).readAll.1 = .ok [n] := by
  rw [readAll_of_runs (runs_program (by simp [hopening]) h) rfl]
  rfl

end Reader

/-! ## Evaluation -/

namespace Eval

variable {σ : Type}

/-- Evaluation looks at the budget of a shell only where it starts. -/
def budgetCongruence (setup : Setup σ) (budget : Nat) :
    Congruence setup { setup with budget := budget } where
  rel x x' := x = x'
  pure _ := rfl
  bind h hf := by rw [h, funext hf]
  fail _ := rfl
  exhausted := rfl
  rescue h hf := by rw [h, funext hf]
  read _ := rfl
  lookup _ := rfl
  defined _ := rfl
  constant _ h := by rw [h]
  setVariable _ _ := rfl
  bindAll _ := rfl
  calleeOfName _ _ := rfl
  calleeOfNode _ _ := rfl
  programPath _ := rfl
  readFile _ := rfl
  tool _ _ := rfl
  pipeline _ _ _ := rfl

theorem budgetCongruence_frames (setup : Setup σ) (budget : Nat) :
    Congruence.Frames fun _ : Unit => budgetCongruence setup budget where
  inFrame _ name bindings _ _ h := congrArg (inFrame name bindings) (h ())
  exit _ _ := rfl

/-- A program that is run inside runs as it does outside, with one run less to nest. -/
theorem reentry_run_succ (setup : Setup σ) (active : Nat) (program : List Node) :
    ({ setup with budget := setup.budget + 1 }.reentry active).run program =
      execute setup (setup.reentry active) program := by
  have hf := budgetCongruence_frames setup (setup.budget + 1)
  have hre := Congruence.withRoom hf rfl (Congruence.nested hf rfl setup.budget)
    (setup.settings.maxDepth - active) ()
  unfold Setup.reentry
  rw [withRoom_run]
  exact ((budgetCongruence setup (setup.budget + 1)).execute hre program).symm

end Eval

namespace Session

open Eval

variable {σ : Type}

/-- `eval` of a quoted list runs the expression that the list stands for, with its faults made
values. -/
theorem evalNode_eval_quoted (setup : Setup σ) {stamp : Stamp} (hquoted : stamp.quoted = true)
    (items : List Node) (s : State σ) :
    evalNode { setup with budget := setup.budget + 1 }
        (.call [.operator {} "eval", .list stamp items]) s =
      rescue (execute setup [(Node.list stamp items).toExpression])
        (fun f => pure (.error {} f.message)) s := by
  have hvalue (re : Reentry σ) : Eval.evalNode { setup with budget := setup.budget + 1 } re
      (.list stamp items) s = (.ok (.list stamp items), s) := by
    rw [Eval.evalNode, if_pos hquoted]
    rfl
  have hcode : codeOf { setup with budget := setup.budget + 1 } (.list stamp items) =
      .ok [(Node.list stamp items).toExpression] := by
    rw [codeOf, if_pos hquoted]
  refine (evalNode_eval (hvalue _) {}).trans ?_
  rw [evalValue_of_ok hcode, reentry_run_succ]
  rfl

/-- **Quoting a call and converting it back gives the call.** The tokens of a call, of a name with
words and calls of that kind for arguments, nested no deeper than the bound, are read as one node.
With the opener quoted they are read as one list, and the expression that this list stands for is
that node, to the last stamp. So `eval` of the list, in a shell that may nest one run more, comes to
what the call comes to, with its faults made values. -/
theorem quoted_call {o : Opener} {opening head closing : Token} {args : List Token} {bound : Nat}
    (ho : o = .paren ∨ o = .bracket) (hopening : opening.text = o.text)
    (hhead : head.isName = true) (hargs : Token.AreArguments args)
    (hclosing : closing.text = o.closer.text)
    (hbound : Token.deepest 0 (opening :: head :: args ++ [closing]) ≤ bound) :
    ∃ x y, (Reader.ofTokens (opening :: head :: args ++ [closing]) bound).readAll.1 = .ok [x] ∧
      (Reader.ofTokens ({ opening with text := "'" ++ opening.text } :: head :: args ++ [closing])
        bound).readAll.1 = .ok [y] ∧
      (∃ items, y = .list { quoted := true } items) ∧ y.toExpression = x ∧
      ∀ {σ : Type} (setup : Setup σ) (s : State σ),
        evalNode { setup with budget := setup.budget + 1 } (.call [.operator {} "eval", y]) s =
          rescue (execute setup [x]) (fun f => pure (.error {} f.message)) s := by
  obtain ⟨ns, hns, hread⟩ := Reader.arguments_read hargs 1
  have hopener := Token.shape_of_opener hopening
  have hcloser := Token.shape_of_closer hclosing
  have hspells : Spells 0 (opening :: head :: args ++ [closing]) [Reader.quotedCall 0 head ns] :=
    .list (Reader.ne_brace_of_code ho) hopener hcloser (.word (.name hhead) hns) .nil
  have hnesting : 0 + (Reader.quotedCall 0 head ns).nesting ≤ bound := by
    rw [Nat.zero_add, ← hspells.deepest_eq]
    exact hbound
  have hcode : (Reader.ofTokens (opening :: head :: args ++ [closing]) bound).readAll.1 =
      .ok [(Reader.quotedCall 0 head ns).toExpression] := by
    have hname := Reader.isName_of_opener hopener
    exact Reader.readAll_statement hopener (Reader.runs_statement hname
      (Reader.call_read ho hopening hhead hread hclosing hnesting .nil))
  -- the quoted opener spells the same list
  obtain ⟨o', ho', htext, hkind⟩ : ∃ o', (o' = .quotedParen ∨ o' = .quotedBracket) ∧
      "'" ++ o.text = Opener.text o' ∧ o.closer = o'.closer := by
    obtain rfl | rfl := ho
    · exact ⟨.quotedParen, .inl rfl, by decide, rfl⟩
    · exact ⟨.quotedBracket, .inr rfl, by decide, rfl⟩
  have hquoted : Token.shape { opening with text := "'" ++ opening.text } = .opener o' :=
    Token.shape_of_opener (by rw [hopening, htext])
  have hdata : (Reader.ofTokens ({ opening with text := "'" ++ opening.text } :: head :: args ++
      [closing]) bound).readAll.1 = .ok [Reader.quotedCall 0 head ns] := by
    have hbrace := Reader.ne_brace_of_quoted ho'
    refine Reader.readAll_statement hquoted ((Reader.statement_quoted_iff ho' hquoted).2 ?_)
    refine (Reader.dataElement_iff hbrace hquoted).2 ⟨_, (List.append_nil _).symm, ?_, hnesting⟩
    exact .list hbrace hquoted (hkind ▸ hcloser) (.word (.name hhead) hns) .nil
  exact ⟨_, _, hcode, hdata, ⟨_, rfl⟩, rfl, fun setup s => evalNode_eval_quoted setup rfl _ s⟩

/-- A call in brackets among the arguments, with a negative number, as deep as the bound allows. -/
theorem quoted_call_nested :
    let call : List Token :=
      [⟨"f", 1⟩, ⟨"[", 1⟩, ⟨"g", 1⟩, ⟨"-1", 1⟩, ⟨"]", 1⟩, ⟨"\"a\"", 1⟩, ⟨")", 2⟩]
    Token.deepest 0 (⟨"(", 1⟩ :: call) = 2 ∧
      ∃ x y, (Reader.ofTokens (⟨"(", 1⟩ :: call) 2).readAll.1 = .ok [x] ∧
        (Reader.ofTokens (⟨"'(", 1⟩ :: call) 2).readAll.1 = .ok [y] ∧ y.toExpression = x := by
  intro call
  have hnumber : Token.IsArgument ⟨"-1", 1⟩ := .inl ⟨by decide, by decide, by decide⟩
  have hargs : Token.AreArguments [⟨"[", 1⟩, ⟨"g", 1⟩, ⟨"-1", 1⟩, ⟨"]", 1⟩, ⟨"\"a\"", 1⟩] :=
    .call (.inr rfl) rfl (by decide) (.word hnumber .nil) rfl (.word (.inr (.inl rfl)) .nil)
  have hdepth : Token.deepest 0 (⟨"(", 1⟩ :: call) = 2 := by decide
  obtain ⟨x, y, hx, hy, -, hxy, -⟩ := @quoted_call .paren ⟨"(", 1⟩ ⟨"f", 1⟩ ⟨")", 2⟩ _ 2 (.inl rfl)
    rfl (by decide) hargs rfl (Nat.le_of_eq hdepth)
  exact ⟨hdepth, x, y, hx, hy, hxy⟩

end Session

end ExprShell
