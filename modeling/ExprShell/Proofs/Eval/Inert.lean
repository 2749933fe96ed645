/-
Quoted data never turns into code by itself (`Session.execute_inert`): where all bound values are
inert, they stay so whatever code is evaluated and however it ends, and what comes out is inert.

A computation is safe if it keeps the scopes clean and gives values with a property (`Safe`);
safety goes through sequencing, so it is shown along the evaluator, one lemma per function.
-/
import ExprShell.Machine.Host
import ExprShell.Proofs.Environment.Clean
import ExprShell.Proofs.Eval.Congruence
import ExprShell.Proofs.Reader.Contract

namespace ExprShell

open Node (IsCode IsValue AreValues)

variable {σ α β : Type}

namespace Eval

/-! ## Safe computations -/

/-- From clean scopes the computation ends in clean scopes, whatever the outcome, and a value it
gives has a property. -/
def Safe (P : α → Prop) (x : Eval σ α) : Prop :=
  ∀ s, s.env.Clean → (x s).2.env.Clean ∧ ∀ a, (x s).1 = .ok a → P a

namespace Safe

variable {P : α → Prop} {Q : β → Prop} {x : Eval σ α}

theorem pure {a : α} (h : P a) : Safe P (pure a : Eval σ α) := by
  intro s hs
  refine ⟨hs, ?_⟩
  rintro _ ⟨⟩
  exact h

theorem halt (h : Halt) : Safe P (halt h : Eval σ α) := by
  intro s hs
  refine ⟨hs, fun a ha => ?_⟩
  cases ha

theorem fail (f : Fault) : Safe P (fail f : Eval σ α) :=
  halt (.fault f)

theorem bind {f : α → Eval σ β} (hx : Safe P x) (hf : ∀ a, P a → Safe Q (f a)) :
    Safe Q (x >>= f) := by
  intro s hs
  obtain ⟨henv, hvalue⟩ := hx s hs
  cases h : x s with
  | mk r s' =>
    rw [h] at henv hvalue
    cases r with
    | ok a =>
      rw [bind_of_ok h]
      exact hf a (hvalue a rfl) s' henv
    | error e =>
      rw [bind_of_error h]
      refine ⟨henv, fun b hb => ?_⟩
      cases hb

theorem attempt (hx : Safe P x) : Safe (fun r => ∀ a, r = .ok a → P a) (attempt x) := by
  intro s hs
  obtain ⟨henv, hvalue⟩ := hx s hs
  refine ⟨henv, ?_⟩
  rintro _ ⟨⟩
  exact hvalue

theorem ofExcept {r : Except Fault α} (h : ∀ a, r = .ok a → P a) :
    Safe P (ofExcept r : Eval σ α) := by
  cases r with
  | ok a => exact pure (h a rfl)
  | error f => exact fail f

theorem ask {f : State σ → Except Fault α} (h : ∀ s, s.env.Clean → ∀ a, f s = .ok a → P a) :
    Safe P (ask f) := by
  intro s hs
  exact ofExcept (h s hs) s hs

theorem env : Safe Environment.Clean (env : Eval σ Environment) := by
  intro s hs
  refine ⟨hs, ?_⟩
  rintro _ ⟨⟩
  exact hs

theorem modifyEnv {f : Environment → Environment} (h : ∀ e, e.Clean → (f e).Clean) :
    Safe (fun _ => True) (modifyEnv f : Eval σ Unit) := by
  intro s hs
  exact ⟨h s.env hs, fun _ _ => trivial⟩

theorem askHost (f : σ → α) : Safe (fun _ => True) (askHost f) := by
  intro s hs
  exact ⟨hs, fun _ _ => trivial⟩

theorem modifyHost (f : σ → σ) : Safe (fun _ => True) (modifyHost f) := by
  intro s hs
  exact ⟨hs, fun _ _ => trivial⟩

theorem pipeline (setup : Setup σ) (commands : List Command) (input : Option String)
    (mode : OutputMode) : Safe (fun _ => True) (setup.pipeline commands input mode) := by
  intro s hs
  unfold Setup.pipeline
  split
  · exact ⟨hs, fun _ _ => trivial⟩
  · exact ⟨hs, fun _ _ => trivial⟩

theorem programPath (setup : Setup σ) (name : String) :
    Safe (fun _ => True) (programPath setup name) := by
  intro s hs
  unfold Eval.programPath
  split
  · exact ⟨hs, fun _ _ => trivial⟩
  · exact fail _ s hs

theorem inFrame {name : String} {bindings : Table Node} (hbindings : bindings.All IsValue)
    (hx : Safe P x) : Safe P (inFrame name bindings x) := by
  intro s hs
  obtain ⟨henv, hvalue⟩ := hx { s with env := (s.env.pushFrame name bindings).pushScope }
    (hs.enter hbindings)
  exact ⟨henv.leave, hvalue⟩

/-- A leaf is a value. -/
theorem leaf {n : Node} (h : n.isLeaf = true) : Safe IsValue (Pure.pure n : Eval σ Node) :=
  pure (Node.isValue_leaf h)

end Safe

/-! ## Tools -/

theorem runShown_safe (setup : Setup σ) (commands : List Command) (input : Option String) :
    Safe IsValue (setup.runShown commands input) :=
  .bind (.pipeline setup commands input .inherit) fun _ _ => .leaf rfl

theorem capture_safe (setup : Setup σ) (commands : List Command) :
    Safe IsValue (capture setup commands) :=
  .bind (.pipeline setup commands none .capture) fun _ _ => .leaf rfl

theorem changeHost_safe (change : σ → Except String σ) (fault : String → Fault) :
    Safe IsValue (Tool.changeHost change fault) := by
  refine .bind (.askHost _) fun found _ => ?_
  cases found with
  | ok next => exact .bind (.modifyHost _) fun _ _ => .leaf rfl
  | error reason => exact .fail _

theorem changeDirectory_safe (host : Host σ) (args : List Node) :
    Safe IsValue (Tool.changeDirectory host args) := by
  unfold Tool.changeDirectory
  split
  · refine .bind (.askHost _) fun found _ => ?_
    cases found with
    | some path => exact changeHost_safe _ _
    | none => exact .fail _
  · exact changeHost_safe _ _
  · exact .fail _

theorem writeVariable_safe (host : Host σ) (name value : String) :
    Safe IsValue (Tool.writeVariable host name value) := by
  unfold Tool.writeVariable
  split
  · exact .fail _
  split
  · exact .fail _
  · exact .bind (.modifyHost _) fun _ _ => .leaf rfl

theorem run_safe (host : Host σ) (searchPath : List String) (tool : Tool) {args : List Node}
    (hargs : ∀ a ∈ args, IsValue a) : Safe IsValue (tool.run host searchPath args) := by
  unfold Tool.run
  split
  · exact changeHost_safe _ _
  · exact changeHost_safe _ _
  · exact changeDirectory_safe host _
  · refine .bind (.askHost _) fun found _ => ?_
    cases found with
    | ok path => exact .leaf rfl
    | error reason => exact .fail _
  · refine .bind (.askHost _) fun found _ => ?_
    cases found with
    | some value => exact .leaf rfl
    | none => exact .leaf rfl
  · exact writeVariable_safe host _ _
  · refine .bind (.askHost _) fun found _ => ?_
    cases found with
    | some path => exact .leaf rfl
    | none => exact .leaf rfl
  · refine .bind .env fun env _ => ?_
    exact .bind (.modifyEnv fun _ h => h.unbind) fun _ _ => .leaf rfl
  · exact .bind .env fun env _ => .pure (Tool.isValue_strings _)
  · split
    · next value hvalue =>
      exact .ofExcept fun n hn => Tool.isValue_pureValue? hvalue hn hargs
    · exact .halt _

theorem tool_safe (host : Host σ) (searchPath : List String) (tool : Tool) {args : List Node}
    (hargs : ∀ a ∈ args, IsValue a) : Safe IsValue (tool.call host searchPath args) := by
  unfold Tool.call
  split
  · split
    · exact run_safe host searchPath tool hargs
    · exact .fail _
  · exact run_safe host searchPath tool hargs

end Eval

/-! ## Callees -/

namespace Callee

/-- What is called is code, and what stands for itself is a value. -/
def Holds : Callee → Prop
  | .procedure _ p => p.IsCode
  | .value n => IsValue n
  | _ => True

variable {setup : Setup σ} {s : State σ} {name : String} {bare : Bool} {callee : Callee}

theorem holds_ofCallable? {env : Environment} (h : ofCallable? setup env name = some callee)
    (henv : env.Clean) : callee.Holds := by
  unfold ofCallable? at h
  split at h
  · cases h
    trivial
  · split at h
    · next p hp =>
      cases h
      exact henv.procedure? hp
    · obtain ⟨t, -, rfl⟩ := Option.map_eq_some_iff.1 h
      trivial

theorem holds_ofProgram (h : ofProgram setup s name = .ok callee) : callee.Holds := by
  unfold ofProgram at h
  split at h
  · cases h
    trivial
  · cases h

theorem holds_ofBound {bound : Node} (h : ofBound setup s name bound bare = .ok callee)
    (hs : s.env.Clean) (hbound : IsValue bound) : callee.Holds := by
  unfold ofBound at h
  split at h
  · cases h
    exact hbound.code.body
  · split at h
    · next found hfound =>
      cases h
      obtain ⟨target, -, hcallable⟩ := Option.bind_eq_some_iff.1 hfound
      exact holds_ofCallable? hcallable hs
    · split at h
      · cases h
        exact hbound
      · exact holds_ofProgram h

theorem holds_ofName (h : ofName setup s name bare = .ok callee) (hs : s.env.Clean) :
    callee.Holds := by
  unfold ofName at h
  split at h
  · next found hfound =>
    cases h
    exact holds_ofCallable? hfound hs
  · split at h
    · next bound hbound => exact holds_ofBound h hs (hs.lookup hbound)
    · exact holds_ofProgram h

theorem holds_ofNode {n : Node} (h : ofNode setup s n bare = .ok callee) (hs : s.env.Clean)
    (hn : IsValue n) : callee.Holds := by
  unfold ofNode at h
  split at h
  · cases h
    exact hn.code.body
  · exact holds_ofName h hs
  · exact holds_ofName h hs
  · exact holds_ofName h hs
  · exact holds_ofName h hs
  · cases h

end Callee

/-! ## Calls -/

/-- Procedures and programs of other code run safely. -/
structure Reentry.IsSafe (re : Reentry σ) : Prop where
  enter {name : String} {bindings : Table Node} {body : List Node} :
    bindings.All IsValue → (∀ n ∈ body, IsCode n) → Eval.Safe IsValue (re.enter name bindings body)
  run {program : List Node} : (∀ n ∈ program, IsCode n) → Eval.Safe IsValue (re.run program)
  leave (status : Nat) : Eval.Safe IsValue (re.leave status)

namespace Eval

variable {setup : Setup σ} {re : Reentry σ} {args : List Node} {n : Node}

theorem invoke_safe (hre : re.IsSafe) {name : String} {p : Procedure} (hp : p.IsCode)
    (hargs : ∀ a ∈ args, IsValue a) : Safe IsValue (re.invoke name p args) := by
  unfold Reentry.invoke
  split
  · refine hre.enter (.insertAll (List.forall_mem_nil _) fun entry hentry => ?_) hp
    exact hargs _ (List.of_mem_zip hentry).2
  · exact .fail _

theorem isCode_codeOf {code : List Node} (h : codeOf setup n = .ok code) (hn : IsValue n) :
    ∀ m ∈ code, IsCode m := by
  cases n with
  | string s source => exact Reader.isCode_of_parse h
  | rawAst s held =>
    cases h
    exact List.forall_mem_singleton.2 hn.code.held
  | list s items =>
    rw [codeOf, if_pos (Node.isValue_list.1 hn).1] at h
    cases h
    exact List.forall_mem_singleton.2 (Node.isCode_toExpression _ hn)
  | _ =>
    cases h
    exact List.forall_mem_singleton.2 hn.code

theorem evalValue_safe (hre : re.IsSafe) (hn : IsValue n) :
    Safe IsValue (evalValue setup re n) := by
  unfold evalValue
  cases hcode : codeOf setup n with
  | error f => exact .leaf rfl
  | ok code =>
    refine .bind (.attempt (hre.run (isCode_codeOf hcode hn))) fun outcome houtcome => ?_
    split
    · exact .pure (houtcome _ rfl)
    · exact .leaf rfl
    · exact .halt _

theorem isCode_asOne {nodes : List Node} (h : ∀ m ∈ nodes, IsCode m) : IsCode (asOne nodes) := by
  unfold asOne
  split
  · exact h _ List.mem_cons_self
  · exact Node.isCode_unquoted (List.forall_mem_cons.2 ⟨.leaf rfl, h⟩) rfl

theorem isValue_readValue {value : Node} (h : readValue setup n = .ok value) : IsValue value := by
  obtain ⟨source, -, h⟩ := exists_of_bind_eq_ok h
  obtain ⟨nodes, hnodes, h⟩ := exists_of_bind_eq_ok h
  cases h
  have hcode : IsCode (.rawAst {} (asOne nodes)) :=
    .rawAst (isCode_asOne (Reader.isCode_of_parse hnodes))
  exact hcode.isValue fun hkind => by cases hkind

theorem loadFile_safe (hre : re.IsSafe) (path : String) :
    Safe IsValue (loadFile setup re path) := by
  refine .bind (.askHost _) fun contents _ => ?_
  cases contents with
  | error reason => exact .fail _
  | ok source =>
    dsimp only
    cases hread : setup.read source with
    | error f => exact .fail _
    | ok code =>
      have hcode := Reader.isCode_of_parse hread
      refine .bind (.attempt (hre.run hcode)) fun outcome houtcome => ?_
      split
      · exact .pure (houtcome _ rfl)
      · exact .fail _
      · exact .halt _

theorem exitWith_safe (hre : re.IsSafe) : Safe IsValue (exitWith re.leave args) := by
  unfold exitWith
  split
  · exact hre.leave 0
  · refine .bind (.ofExcept fun _ _ => trivial) fun status _ => ?_
    split
    · exact hre.leave _
    · exact .fail _
  · exact .fail _

theorem isValue_lastValue (hargs : ∀ a ∈ args, IsValue a) : IsValue (lastValue args) := by
  unfold lastValue
  cases hlast : args.getLast? with
  | none => exact Node.isValue_leaf rfl
  | some n => exact hargs n (List.mem_of_getLast? hlast)

mutual

theorem call_safe (hre : re.IsSafe) (callee : Callee) (args : List Node) (hcallee : callee.Holds)
    (hargs : ∀ a ∈ args, IsValue a) : Safe IsValue (call setup re callee args) := by
  rw [call.eq_def]
  match callee with
  | .value n => exact .pure hcallee
  | .procedure name p => exact invoke_safe hre hcallee hargs
  | .tool t => exact tool_safe _ _ t hargs
  | .program path => exact runShown_safe _ _ _
  | .builtin .sequence => exact .pure (isValue_lastValue hargs)
  | .builtin .exit => exact exitWith_safe hre
  | .builtin .typeof =>
    dsimp only
    split
    · exact .leaf rfl
    · exact .fail _
  | .builtin .eval =>
    dsimp only
    split
    · exact evalValue_safe hre (hargs _ List.mem_cons_self)
    · exact .fail _
  | .builtin .parse =>
    dsimp only
    split
    · exact .ofExcept fun _ h => isValue_readValue h
    · exact .fail _
  | .builtin .load =>
    dsimp only
    split
    · exact loadFile_safe hre _
    · exact .fail _
  | .builtin .map =>
    dsimp only
    split
    · next f _ items =>
      rw [List.forall_mem_cons, List.forall_mem_singleton, Node.isValue_list] at hargs
      refine .bind (mapItems_safe hre f items hargs.1 hargs.2.2) fun results hresults => ?_
      exact .pure (Node.isValue_data hresults)
    · exact .fail _
    · exact .fail _
  | .builtin .filter =>
    dsimp only
    split
    · next f _ items =>
      rw [List.forall_mem_cons, List.forall_mem_singleton, Node.isValue_list] at hargs
      refine .bind (filterItems_safe hre f items hargs.1 hargs.2.2) fun kept hkept => ?_
      exact .pure (Node.isValue_data hkept)
    · exact .fail _
    · exact .fail _
  | .builtin .apply =>
    dsimp only
    split
    · next f _ items =>
      rw [List.forall_mem_cons, List.forall_mem_singleton, Node.isValue_list] at hargs
      exact callNode_safe hre f items hargs.1 hargs.2.2
    · exact .fail _
    · exact .fail _
termination_by 3 * sizeOf args

theorem callNode_safe (hre : re.IsSafe) (f : Node) (args : List Node) (hf : IsValue f)
    (hargs : ∀ a ∈ args, IsValue a) : Safe IsValue (callNode setup re f args) := by
  rw [callNode_eq]
  refine .bind (.ask fun s hs callee h => Callee.holds_ofNode h hs hf) fun callee hcallee => ?_
  exact call_safe hre callee args hcallee hargs
termination_by 3 * sizeOf args + 1

theorem mapItems_safe (hre : re.IsSafe) (f : Node) (items : List Node) (hf : IsValue f)
    (hitems : ∀ a ∈ items, IsValue a) :
    Safe (fun results => ∀ a ∈ results, IsValue a) (mapItems setup re f items) := by
  match items with
  | [] =>
    rw [mapItems]
    exact .pure (List.forall_mem_nil _)
  | item :: rest =>
    rw [List.forall_mem_cons] at hitems
    rw [mapItems]
    refine .bind (callNode_safe hre f [item] hf (List.forall_mem_singleton.2 hitems.1))
      fun result hresult => ?_
    refine .bind (mapItems_safe hre f rest hf hitems.2) fun results hresults => ?_
    exact .pure (List.forall_mem_cons.2 ⟨hresult, hresults⟩)
termination_by 3 * sizeOf items + 2
decreasing_by
  · exact measure_item item rest
  · exact measure_rest item rest

theorem filterItems_safe (hre : re.IsSafe) (f : Node) (items : List Node) (hf : IsValue f)
    (hitems : ∀ a ∈ items, IsValue a) :
    Safe (fun kept => ∀ a ∈ kept, IsValue a) (filterItems setup re f items) := by
  match items with
  | [] =>
    rw [filterItems]
    exact .pure (List.forall_mem_nil _)
  | item :: rest =>
    rw [List.forall_mem_cons] at hitems
    rw [filterItems]
    refine .bind (callNode_safe hre f [item] hf (List.forall_mem_singleton.2 hitems.1))
      fun result _ => ?_
    refine .bind (filterItems_safe hre f rest hf hitems.2) fun kept hkept => .pure ?_
    split
    · exact List.forall_mem_cons.2 ⟨hitems.1, hkept⟩
    · exact hkept
termination_by 3 * sizeOf items + 2
decreasing_by
  · exact measure_item item rest
  · exact measure_rest item rest

end

theorem callNamed_safe (hre : re.IsSafe) (name : String) (hargs : ∀ a ∈ args, IsValue a) :
    Safe IsValue (callNamed setup re name args) := by
  rw [callNamed_eq]
  refine .bind (.ask fun s hs callee h => Callee.holds_ofName h hs) fun callee hcallee => ?_
  exact call_safe hre callee args hcallee hargs

/-! ## Nodes -/

theorem evalLeaf_safe (hn : IsCode n) (hkind : n.kind ≠ .list) :
    Safe IsValue (evalLeaf n : Eval σ Node) := by
  have hvalue : IsValue n := hn.isValue fun h => absurd h hkind
  unfold evalLeaf
  split
  · next s name =>
    split
    · exact .pure hvalue
    · refine .bind .env fun env henv => .pure ?_
      cases hlookup : env.lookup name with
      | none => exact hvalue
      | some bound => exact henv.lookup hlookup
  · exact .pure hvalue

theorem evalDefined_safe : Safe IsValue (evalDefined setup args) := by
  unfold evalDefined
  split
  · exact .bind .env fun _ _ => .leaf rfl
  · exact .bind .env fun _ _ => .leaf rfl
  · exact .bind .env fun _ _ => .leaf rfl
  · exact .fail _
  · exact .fail _

theorem checkConstant_safe (name : String) :
    Safe (fun _ => True) (checkConstant name : Eval σ Unit) := by
  refine .bind .env fun env _ => ?_
  split
  · exact .fail _
  · split
    · exact .fail _
    · exact .pure trivial

theorem setConstant_safe (name : String) (hn : IsValue n) :
    Safe IsValue (setConstant name n : Eval σ Node) := by
  refine .bind .env fun env henv => ?_
  refine .bind (.ofExcept fun next hnext => henv.defineConstant hn hnext) fun next hnext => ?_
  exact .bind (.modifyEnv fun _ _ => hnext) fun _ _ => .pure hn

theorem setVariable_safe (name : String) (hn : IsValue n) :
    Safe IsValue (setVariable name n : Eval σ Node) := by
  unfold setVariable
  split
  · have hbody := hn.code.body
    exact .bind (.modifyEnv fun _ h => h.defineProcedure hbody) fun _ _ => .leaf rfl
  · exact .bind (.modifyEnv fun _ h => h.bind hn) fun _ _ => .pure hn

/-- What a pattern captures is a value. -/
def Captured (found : Option Captures) : Prop :=
  ∀ captures, found = some captures → AreValues captures

/-- A pattern that is compared with what it evaluates to captures nothing. -/
theorem compared_safe {x : Eval σ Node} (hx : Safe IsValue x) (scrutinee : Node) :
    Safe Captured
      (x >>= fun value => pure (if value.same scrutinee then some [] else none)) := by
  refine .bind hx fun value _ => .pure fun captures h => ?_
  split at h
  · cases h
    exact List.forall_mem_nil _
  · cases h

mutual

theorem evalNode_safe (hre : re.IsSafe) (n : Node) (hn : IsCode n) :
    Safe IsValue (evalNode setup re n) := by
  match n with
  | .list s items =>
    simp only [evalNode]
    split
    · next hquoted => exact .pure (hn.isValue fun _ => hquoted)
    · exact evalCall_safe hre items hn.of_mem
  | .string .. | .number .. | .boolean .. | .function .. | .operator .. | .identifier ..
  | .command .. | .commandResult .. | .error .. | .rawAst .. | .defunc .. =>
    simp only [evalNode]
    exact evalLeaf_safe hn (by simp [Node.kind])

theorem evalArgs_safe (hre : re.IsSafe) (args : List Node) (hargs : ∀ n ∈ args, IsCode n) :
    Safe (fun values => ∀ a ∈ values, IsValue a) (evalArgs setup re args) := by
  match args with
  | [] => exact .pure (List.forall_mem_nil _)
  | n :: rest =>
    rw [List.forall_mem_cons] at hargs
    refine .bind (evalNode_safe hre n hargs.1) fun value hvalue => ?_
    refine .bind (evalArgs_safe hre rest hargs.2) fun values hvalues => ?_
    exact .pure (List.forall_mem_cons.2 ⟨hvalue, hvalues⟩)

theorem evalCall_safe (hre : re.IsSafe) (items : List Node) (hitems : ∀ n ∈ items, IsCode n) :
    Safe IsValue (evalCall setup re items) := by
  match items with
  | [] => exact .fail _
  | .operator _ name :: args =>
    rw [List.forall_mem_cons] at hitems
    have hargs := hitems.2
    simp only [evalCall]
    split
    · exact evalLet_safe hre args hargs
    · exact evalIf_safe hre args hargs
    · exact evalEvery_safe hre args hargs
    · exact evalSome_safe hre args hargs
    · exact evalDefined_safe
    · exact evalClauses_safe hre args hargs
    · exact evalMatch_safe hre args hargs
    · exact evalHereString_safe hre args hargs
    · exact .bind (evalPipeline_safe hre args hargs) fun _ _ => runShown_safe _ _ _
    · split
      · exact .bind (evalStage_safe hre [] args hargs) fun _ _ => capture_safe _ _
      · exact .bind (evalLone_safe hre args hargs) fun _ _ => capture_safe _ _
    · exact .bind (evalArgs_safe hre args hargs) fun _ hvalues => callNamed_safe hre name hvalues
  | .function _ params body :: args =>
    rw [List.forall_mem_cons] at hitems
    simp only [evalCall]
    refine .bind (evalArgs_safe hre args hitems.2) fun values hvalues => ?_
    exact invoke_safe hre hitems.1.body hvalues
  | .list s items :: args =>
    rw [List.forall_mem_cons] at hitems
    simp only [evalCall]
    split
    · exact .bind (evalStage_safe hre _ args hitems.2) fun _ _ => runShown_safe _ _ _
    · refine .bind (evalNode_safe hre (.list s items) hitems.1) fun f hf => ?_
      refine .bind (evalArgs_safe hre args hitems.2) fun values hvalues => ?_
      exact callNode_safe hre f values hf hvalues
  | .string .. :: args | .number .. :: args | .boolean .. :: args | .identifier .. :: args
  | .command .. :: args | .commandResult .. :: args | .error .. :: args | .rawAst .. :: args
  | .defunc .. :: args =>
    rw [List.forall_mem_cons] at hitems
    simp only [evalCall]
    refine .bind (evalNode_safe hre _ hitems.1) fun f hf => ?_
    refine .bind (evalArgs_safe hre args hitems.2) fun values hvalues => ?_
    exact callNode_safe hre f values hf hvalues

theorem evalLet_safe (hre : re.IsSafe) (args : List Node) (hargs : ∀ n ∈ args, IsCode n) :
    Safe IsValue (evalLet setup re args) := by
  match args with
  | [flag, name, n] =>
    simp only [evalLet]
    split
    · refine .bind (.ofExcept fun _ _ => trivial) fun name _ => ?_
      refine .bind (checkConstant_safe name) fun _ _ => ?_
      refine .bind (evalNode_safe hre n (hargs n (by simp))) fun value hvalue => ?_
      exact setConstant_safe name hvalue
    · exact .fail _
  | [name, n] =>
    refine .bind (.ofExcept fun _ _ => trivial) fun name _ => ?_
    refine .bind (evalNode_safe hre n (hargs n (by simp))) fun value hvalue => ?_
    exact setVariable_safe name hvalue
  | [] | [_] | _ :: _ :: _ :: _ :: _ => exact .fail _

theorem evalIf_safe (hre : re.IsSafe) (args : List Node) (hargs : ∀ n ∈ args, IsCode n) :
    Safe IsValue (evalIf setup re args) := by
  match args with
  | [test, yes] =>
    refine .bind (evalNode_safe hre test (hargs test (by simp))) fun value _ => ?_
    split
    · exact evalNode_safe hre yes (hargs yes (by simp))
    · exact .leaf rfl
  | [test, yes, no] =>
    refine .bind (evalNode_safe hre test (hargs test (by simp))) fun value _ => ?_
    split
    · exact evalNode_safe hre yes (hargs yes (by simp))
    · exact evalNode_safe hre no (hargs no (by simp))
  | [] | [_] | _ :: _ :: _ :: _ :: _ => exact .fail _

theorem evalEvery_safe (hre : re.IsSafe) (args : List Node) (hargs : ∀ n ∈ args, IsCode n) :
    Safe IsValue (evalEvery setup re args) := by
  match args with
  | [] => exact .leaf rfl
  | n :: rest =>
    rw [List.forall_mem_cons] at hargs
    refine .bind (evalNode_safe hre n hargs.1) fun value _ => ?_
    split
    · exact evalEvery_safe hre rest hargs.2
    · exact .leaf rfl

theorem evalSome_safe (hre : re.IsSafe) (args : List Node) (hargs : ∀ n ∈ args, IsCode n) :
    Safe IsValue (evalSome setup re args) := by
  match args with
  | [] => exact .leaf rfl
  | n :: rest =>
    rw [List.forall_mem_cons] at hargs
    refine .bind (evalNode_safe hre n hargs.1) fun value _ => ?_
    split
    · exact .leaf rfl
    · exact evalSome_safe hre rest hargs.2

theorem evalClauses_safe (hre : re.IsSafe) (args : List Node) (hargs : ∀ n ∈ args, IsCode n) :
    Safe IsValue (evalClauses setup re args) := by
  match args with
  | [] => exact .leaf rfl
  | .list _ [test, body] :: rest =>
    rw [List.forall_mem_cons] at hargs
    have hclause := hargs.1.of_mem
    refine .bind (evalNode_safe hre test (hclause test (by simp))) fun value _ => ?_
    split
    · exact evalNode_safe hre body (hclause body (by simp))
    · exact evalClauses_safe hre rest hargs.2
  | .list _ [] :: _ | .list _ [_] :: _ | .list _ (_ :: _ :: _ :: _) :: _ => exact .fail _
  | .string .. :: _ | .number .. :: _ | .boolean .. :: _ | .function .. :: _
  | .operator .. :: _ | .identifier .. :: _ | .command .. :: _ | .commandResult .. :: _
  | .error .. :: _ | .rawAst .. :: _ | .defunc .. :: _ => exact .fail _

theorem evalMatch_safe (hre : re.IsSafe) (args : List Node) (hargs : ∀ n ∈ args, IsCode n) :
    Safe IsValue (evalMatch setup re args) := by
  match args with
  | [] => exact .fail _
  | n :: branches =>
    rw [List.forall_mem_cons] at hargs
    refine .bind (evalNode_safe hre n hargs.1) fun scrutinee hscrutinee => ?_
    exact evalBranches_safe hre scrutinee hscrutinee branches hargs.2

theorem evalBranches_safe (hre : re.IsSafe) (scrutinee : Node) (hscrutinee : IsValue scrutinee)
    (branches : List Node) (hbranches : ∀ n ∈ branches, IsCode n) :
    Safe IsValue (evalBranches setup re scrutinee branches) := by
  match branches with
  | [] => exact .leaf rfl
  | .list _ [pattern, body] :: rest =>
    rw [List.forall_mem_cons] at hbranches
    have hbranch := hbranches.1.of_mem
    refine .bind (evalPattern_safe hre scrutinee hscrutinee pattern (hbranch pattern (by simp)))
      fun found hfound => ?_
    cases found with
    | some captures =>
      have hcaptures := hfound captures rfl
      refine .bind (.modifyEnv fun _ h => h.bindAll hcaptures) fun _ _ => ?_
      exact evalNode_safe hre body (hbranch body (by simp))
    | none => exact evalBranches_safe hre scrutinee hscrutinee rest hbranches.2
  | .list _ [] :: _ | .list _ [_] :: _ | .list _ (_ :: _ :: _ :: _) :: _ => exact .fail _
  | .string .. :: _ | .number .. :: _ | .boolean .. :: _ | .function .. :: _
  | .operator .. :: _ | .identifier .. :: _ | .command .. :: _ | .commandResult .. :: _
  | .error .. :: _ | .rawAst .. :: _ | .defunc .. :: _ => exact .fail _

theorem evalPattern_safe (hre : re.IsSafe) (scrutinee : Node) (hscrutinee : IsValue scrutinee)
    (pattern : Node) (hpattern : IsCode pattern) :
    Safe Captured (evalPattern setup re scrutinee pattern) := by
  match pattern with
  | .list s [head, operand] =>
    simp only [evalPattern]
    split
    · exact .pure fun _ h => Node.isValue_matches? _ scrutinee h hscrutinee
    · split
      · refine .bind (evalNode_safe hre operand (hpattern.of_mem operand (by simp)))
          fun value _ => ?_
        exact .ofExcept fun _ h _ hsome => Node.isValue_test (hsome ▸ h) hscrutinee
      · exact compared_safe (evalCall_safe hre [head, operand] hpattern.of_mem) scrutinee
  | .list s [head, capture, operand] =>
    simp only [evalPattern]
    split
    · exact .pure fun _ h => Node.isValue_matches? _ scrutinee h hscrutinee
    · split
      · refine .bind (evalNode_safe hre operand (hpattern.of_mem operand (by simp)))
          fun value _ => ?_
        exact .ofExcept fun _ h _ hsome => Node.isValue_test (hsome ▸ h) hscrutinee
      · split
        · refine .bind (.ofExcept fun _ h => Node.isValue_destructure h hscrutinee)
            fun captures hcaptures => .pure ?_
          rintro _ ⟨⟩
          exact hcaptures
        · exact compared_safe (evalCall_safe hre [head, capture, operand] hpattern.of_mem) scrutinee
  | .list s [] =>
    simp only [evalPattern]
    split
    · exact .pure fun _ h => Node.isValue_matches? _ scrutinee h hscrutinee
    · exact compared_safe (evalCall_safe hre [] hpattern.of_mem) scrutinee
  | .list s [a] =>
    simp only [evalPattern]
    split
    · exact .pure fun _ h => Node.isValue_matches? _ scrutinee h hscrutinee
    · exact compared_safe (evalCall_safe hre [a] hpattern.of_mem) scrutinee
  | .list s (a :: b :: d :: e :: rest) =>
    simp only [evalPattern]
    split
    · exact .pure fun _ h => Node.isValue_matches? _ scrutinee h hscrutinee
    · exact compared_safe (evalCall_safe hre (a :: b :: d :: e :: rest) hpattern.of_mem) scrutinee
  | .string .. | .number .. | .boolean .. | .function .. | .operator .. | .identifier ..
  | .command .. | .commandResult .. | .error .. | .rawAst .. | .defunc .. =>
    simp only [evalPattern]
    split
    · refine .pure ?_
      rintro _ ⟨⟩
      exact List.forall_mem_singleton.2 hscrutinee
    · exact compared_safe (evalLeaf_safe hpattern (by simp [Node.kind])) scrutinee

theorem evalLone_safe (hre : re.IsSafe) (args : List Node) (hargs : ∀ n ∈ args, IsCode n) :
    Safe (fun _ => True) (evalLone setup re args) := by
  match args with
  | [n] => exact evalCommands_safe hre n (hargs n (by simp))
  | [] | _ :: _ :: _ => exact .fail _

theorem evalHereString_safe (hre : re.IsSafe) (args : List Node) (hargs : ∀ n ∈ args, IsCode n) :
    Safe IsValue (evalHereString setup re args) := by
  match args with
  | [text, n] =>
    refine .bind (evalNode_safe hre text (hargs text (by simp))) fun _ _ => ?_
    exact .bind (evalCommands_safe hre n (hargs n (by simp))) fun _ _ => runShown_safe _ _ _
  | [] | [_] | _ :: _ :: _ :: _ => exact .fail _

theorem evalCommands_safe (hre : re.IsSafe) (n : Node) (hn : IsCode n) :
    Safe (fun _ => True) (evalCommands setup re n) := by
  match n with
  | .list s (head :: rest) =>
    have hitems := hn.of_mem
    simp only [evalCommands]
    split
    · exact .fail _
    · split
      · exact evalPipeline_safe hre rest (List.forall_mem_cons.1 hitems).2
      · exact .bind (evalStage_safe hre [] (head :: rest) hitems) fun _ _ => .pure trivial
  | .list _ [] | .string .. | .number .. | .boolean .. | .function .. | .operator ..
  | .identifier .. | .command .. | .commandResult .. | .error .. | .rawAst .. | .defunc .. =>
    exact .fail _

theorem evalPipeline_safe (hre : re.IsSafe) (args : List Node) (hargs : ∀ n ∈ args, IsCode n) :
    Safe (fun _ => True) (evalPipeline setup re args) := by
  match args with
  | [] => exact .fail _
  | n :: rest =>
    rw [List.forall_mem_cons] at hargs
    refine .bind (evalCommand_safe hre n hargs.1) fun _ _ => ?_
    exact .bind (evalStages_safe hre rest hargs.2) fun _ _ => .pure trivial

theorem evalStages_safe (hre : re.IsSafe) (args : List Node) (hargs : ∀ n ∈ args, IsCode n) :
    Safe (fun _ => True) (evalStages setup re args) := by
  match args with
  | [] => exact .pure trivial
  | n :: rest =>
    rw [List.forall_mem_cons] at hargs
    refine .bind (evalCommand_safe hre n hargs.1) fun _ _ => ?_
    exact .bind (evalStages_safe hre rest hargs.2) fun _ _ => .pure trivial

theorem evalCommand_safe (hre : re.IsSafe) (n : Node) (hn : IsCode n) :
    Safe (fun _ => True) (evalCommand setup re n) := by
  match n with
  | .list s (head :: rest) =>
    have hitems := hn.of_mem
    simp only [evalCommand]
    split
    · exact .fail _
    · exact evalStage_safe hre [] (head :: rest) hitems
  | .list _ [] | .string .. | .number .. | .boolean .. | .function .. | .operator ..
  | .identifier .. | .command .. | .commandResult .. | .error .. | .rawAst .. | .defunc .. =>
    exact .fail _

theorem evalStage_safe (hre : re.IsSafe) (overrides items : List Node)
    (hitems : ∀ n ∈ items, IsCode n) :
    Safe (fun _ => True) (evalStage setup re overrides items) := by
  match items with
  | [] => exact .fail _
  | head :: rest =>
    rw [List.forall_mem_cons] at hitems
    simp only [evalStage]
    split
    · exact evalStage_safe hre (overrides ++ [head]) rest hitems.2
    · refine .bind (.ofExcept fun _ _ => trivial) fun _ _ => ?_
      refine .bind (evalName_safe hre head hitems.1) fun name _ => ?_
      refine .bind (.programPath setup name) fun _ _ => ?_
      exact .bind (evalArgs_safe hre rest hitems.2) fun _ _ => .pure trivial

theorem evalName_safe (hre : re.IsSafe) (n : Node) (hn : IsCode n) :
    Safe (fun _ => True) (evalName setup re n) := by
  match n with
  | .operator _ name => exact .pure trivial
  | .list s items =>
    have hitems := hn.of_mem
    simp only [evalName]
    split
    · exact .pure trivial
    · exact .bind (evalCall_safe hre items hitems) fun _ _ => .pure trivial
  | .string .. | .number .. | .boolean .. | .function .. | .identifier .. | .command ..
  | .commandResult .. | .error .. | .rawAst .. | .defunc .. =>
    simp only [evalName]
    exact .bind (evalLeaf_safe hn (by simp [Node.kind])) fun _ _ => .pure trivial

end

theorem evalSequence_safe (hre : re.IsSafe) {last : Node} (hlast : IsValue last)
    {program : List Node} (hprogram : ∀ n ∈ program, IsCode n) :
    Safe IsValue (evalSequence setup re last program) := by
  induction program generalizing last with
  | nil => exact .pure hlast
  | cons n rest ih =>
    rw [List.forall_mem_cons] at hprogram
    exact .bind (evalNode_safe hre n hprogram.1) fun value hvalue => ih hvalue hprogram.2

theorem execute_safe (hre : re.IsSafe) {program : List Node} (hprogram : ∀ n ∈ program, IsCode n) :
    Safe IsValue (execute setup re program) :=
  evalSequence_safe hre (Node.isValue_leaf rfl) hprogram

/-! ## Nesting -/

theorem withRoom_safe {run : Nat → List Node → Eval σ Node}
    (hrun : ∀ room program, (∀ n ∈ program, IsCode n) → Safe IsValue (run room program))
    (room : Nat) : (setup.withRoom run room).IsSafe := by
  induction room with
  | zero => exact ⟨fun _ _ => .fail _, hrun 0 _, fun _ => .halt _⟩
  | succ room ih =>
    refine ⟨fun hbindings hbody => ?_, hrun (room + 1) _, fun _ => .halt _⟩
    exact .inFrame hbindings (execute_safe ih hbody)

theorem nested_safe (budget room : Nat) {program : List Node}
    (hprogram : ∀ n ∈ program, IsCode n) :
    Safe IsValue (setup.nested budget room program) := by
  induction budget generalizing room program with
  | zero => exact .halt _
  | succ budget ih => exact execute_safe (withRoom_safe (fun room _ h => ih room h) room) hprogram

theorem reentry_safe (setup : Setup σ) (active : Nat) : (setup.reentry active).IsSafe :=
  withRoom_safe (fun room _ h => nested_safe setup.budget room h) _

end Eval

/-! ## Sessions -/

/-- The value is bound to some name: as a constant, a variable or in the frame of a call. -/
def Environment.Binds (e : Environment) (n : Node) : Prop :=
  (∃ name, (name, n) ∈ e.constants) ∨ (∃ name, (name, n) ∈ e.dynamic) ∨
    ∃ frame ∈ e.frames, ∃ name, (name, n) ∈ frame.bindings

theorem Environment.Clean.isValue {e : Environment} {n : Node} (h : e.Clean) (hn : e.Binds n) :
    IsValue n := by
  rcases hn with ⟨name, hn⟩ | ⟨name, hn⟩ | ⟨frame, hframe, name, hn⟩
  · exact h.constants _ hn
  · exact h.dynamic _ hn
  · exact h.frames frame hframe _ hn

namespace Session

/-- A list in an inert value is its own value, and evaluating it changes nothing. -/
theorem evalNode_of_inert {n : Node} (hn : n.Inert) {stamp : Stamp} {items : List Node}
    (hreaches : n.Reaches (.list stamp items)) (setup : Setup σ) (s : State σ) :
    evalNode setup (.list stamp items) s = (.ok (.list stamp items), s) := by
  rw [evalNode, Eval.evalNode, if_pos (hn stamp items hreaches)]
  rfl

/-- **Quoted data never turns into code by itself.** All that the reader gives is code. From
clean scopes, evaluation of any code ends in clean scopes, whatever the outcome: what is bound is
inert, and so is the value if there is one. A list in any of these is its own value, and
evaluating it changes nothing. -/
theorem execute_inert :
    (∀ source maxDepth program, parse source maxDepth = .ok program → ∀ n ∈ program, n.IsCode) ∧
    ∀ (setup : Setup σ) (program : List Node) (s : State σ),
      (∀ n ∈ program, n.IsCode) → s.env.Clean →
        (execute setup program s).2.env.Clean ∧
        ∀ v, ((execute setup program s).1 = .ok v ∨ (execute setup program s).2.env.Binds v) →
          v.Inert ∧ ∀ stamp items, v.Reaches (.list stamp items) → ∀ s' : State σ,
            evalNode setup (.list stamp items) s' = (.ok (.list stamp items), s') := by
  refine ⟨fun _ _ _ h => Reader.isCode_of_parse h, fun setup program s hprogram hs => ?_⟩
  have hsafe : Eval.Safe IsValue (Eval.execute setup (setup.reentry s.env.frameDepth) program) :=
    Eval.execute_safe (Eval.reentry_safe setup s.env.frameDepth) hprogram
  obtain ⟨hclean, hresult⟩ := hsafe s hs
  refine ⟨hclean, fun v hv => ?_⟩
  have hinert : v.Inert := by
    rcases hv with hv | hv
    · exact (hresult v hv).inert
    · exact (hclean.isValue hv).inert
  exact ⟨hinert, fun _ _ hreaches s' => evalNode_of_inert hinert hreaches setup s'⟩

/-- A variable that holds a list in a list: the inner one spells a command, and is none. -/
theorem execute_inert_nested :
    let setup : Setup Machine := { host := Machine.host }
    let command : Node := .data [.ofString "ls"]
    let s : State Machine := ⟨{ dynamic := [("x", .data [command])] }, {}⟩
    s.env.Clean ∧ (execute setup [Reader.nameAt 0 "x"] s).1 = .ok (.data [command]) ∧
      evalNode setup command s = (.ok command, s) := by
  intro setup command s
  have hcommand : IsValue command :=
    Node.isValue_data (List.forall_mem_singleton.2 (Node.isValue_leaf rfl))
  have hlist : IsValue (.data [command]) :=
    Node.isValue_data (List.forall_mem_singleton.2 hcommand)
  have hs : s.env.Clean :=
    ⟨List.forall_mem_nil _, List.forall_mem_singleton.2 hlist, List.forall_mem_nil _,
      List.forall_mem_nil _, List.forall_mem_nil _⟩
  have hprogram : ∀ n ∈ [Reader.nameAt 0 "x"], IsCode n := List.forall_mem_singleton.2 (.leaf rfl)
  obtain ⟨-, hvalues⟩ := execute_inert.2 setup [Reader.nameAt 0 "x"] s hprogram hs
  obtain ⟨-, hlists⟩ := hvalues (.data [command]) (.inl rfl)
  exact ⟨hs, rfl, hlists _ _ (.item List.mem_cons_self .refl) s⟩

end Session

end ExprShell
