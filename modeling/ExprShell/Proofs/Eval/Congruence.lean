/-
Evaluation respects every relation between computations that its parts respect
(`Congruence.evalNode`, `Congruence.reentry`). A property of all evaluations is then shown on
the parts: look-ups, bindings, tools, pipelines, and one call of a procedure. The relation has
two sides, for two shells run next to each other; a property of a single shell leaves the
second side unused.
-/
import ExprShell.Session

namespace ExprShell

variable {σ τ : Type}

namespace Eval

/-- What a check of the state gives. -/
def ask {α : Type} (f : State σ → Except Fault α) : Eval σ α :=
  fun s => ofExcept (f s) s

theorem ask_of_ok {α : Type} {f : State σ → Except Fault α} {s : State σ} {a : α}
    (h : f s = .ok a) : ask f s = (.ok a, s) := by
  rw [ask, h]
  rfl

theorem ask_of_error {α : Type} {f : State σ → Except Fault α} {s : State σ} {e : Fault}
    (h : f s = .error e) : ask f s = (.error (.fault e), s) := by
  rw [ask, h]
  rfl

theorem attempt_of_eq {α : Type} {x : Eval σ α} {s t : State σ} {r : Except Halt α}
    (h : x s = (r, t)) : attempt x s = (.ok r, t) := by
  unfold attempt
  rw [h]

/-- The computation, with another one in place of a fault. -/
def rescue {α : Type} (x : Eval σ α) (mend : Fault → Eval σ α) : Eval σ α := do
  match ← attempt x with
  | .ok value => return value
  | .error (.fault f) => mend f
  | .error h => halt h

/-- A relation between computations of two shells that goes through sequencing and faults, and
that relates everything evaluation does to a state. -/
structure Congruence (setup : Setup σ) (setup' : Setup τ) where
  rel : {α : Type} → Eval σ α → Eval τ α → Prop
  pure {α : Type} (a : α) : rel (pure a) (pure a)
  bind {α β : Type} {x : Eval σ α} {x' : Eval τ α} {f : α → Eval σ β} {f' : α → Eval τ β} :
    rel x x' → (∀ a, rel (f a) (f' a)) → rel (x >>= f) (x' >>= f')
  fail {α : Type} (f : Fault) : rel (fail f : Eval σ α) (fail f)
  exhausted {α : Type} : rel (halt .exhausted : Eval σ α) (halt .exhausted)
  rescue {α : Type} {x : Eval σ α} {x' : Eval τ α} {mend : Fault → Eval σ α}
    {mend' : Fault → Eval τ α} :
    rel x x' → (∀ f, rel (mend f) (mend' f)) → rel (rescue x mend) (rescue x' mend')
  /-- Both shells read source text alike. -/
  read (source : String) : setup'.read source = setup.read source
  lookup (name : String) :
    rel (ask fun s => .ok (s.env.lookup name)) (ask fun s => .ok (s.env.lookup name))
  defined (name : String) :
    rel (ask fun s => .ok (setup.isDefined s.env name))
      (ask fun s => .ok (setup'.isDefined s.env name))
  /-- A constant is checked before its value is computed and set after that. -/
  constant {x : Eval σ Node} {x' : Eval τ Node} (name : String) : rel x x' →
    rel (checkConstant name >>= fun _ => x >>= fun value => setConstant name value)
      (checkConstant name >>= fun _ => x' >>= fun value => setConstant name value)
  setVariable (name : String) (value : Node) :
    rel (setVariable name value) (setVariable name value)
  bindAll (captures : Captures) :
    rel (modifyEnv (·.bindAll captures)) (modifyEnv (·.bindAll captures))
  calleeOfName (name : String) (bare : Bool) :
    rel (ask (Callee.ofName setup · name bare)) (ask (Callee.ofName setup' · name bare))
  calleeOfNode (f : Node) (bare : Bool) :
    rel (ask (Callee.ofNode setup · f bare)) (ask (Callee.ofNode setup' · f bare))
  programPath (name : String) : rel (programPath setup name) (programPath setup' name)
  readFile (path : String) :
    rel (askHost (setup.host.readFile · path)) (askHost (setup'.host.readFile · path))
  tool (t : Tool) (args : List Node) :
    rel (t.call setup.host setup.settings.searchPath args)
      (t.call setup'.host setup'.settings.searchPath args)
  pipeline (commands : List Command) (input : Option String) (mode : OutputMode) :
    rel (setup.pipeline commands input mode) (setup'.pipeline commands input mode)

/-- What a property of a single shell has for `Congruence.read`. -/
theorem read_self (setup : Setup σ) (source : String) : setup.read source = setup.read source :=
  rfl

/-! ## Operations in terms of checks and sequences -/

theorem callNode_eq (setup : Setup σ) (re : Reentry σ) (f : Node) (args : List Node) :
    callNode setup re f args =
      ask (Callee.ofNode setup · f args.isEmpty) >>= fun callee => call setup re callee args := by
  funext s
  symm
  rw [callNode]
  cases h : Callee.ofNode setup s f args.isEmpty with
  | ok callee => exact bind_of_ok (ask_of_ok h)
  | error fault => exact bind_of_error (ask_of_error h)

theorem callNamed_eq (setup : Setup σ) (re : Reentry σ) (name : String) (args : List Node) :
    callNamed setup re name args =
      ask (Callee.ofName setup · name args.isEmpty) >>= fun callee =>
        call setup re callee args := by
  funext s
  symm
  rw [callNamed]
  cases h : Callee.ofName setup s name args.isEmpty with
  | ok callee => exact bind_of_ok (ask_of_ok h)
  | error fault => exact bind_of_error (ask_of_error h)

/-- Other code is run with its faults made values. -/
theorem evalValue_of_ok {setup : Setup σ} {n : Node} {code : List Node}
    (h : codeOf setup n = .ok code) (re : Reentry σ) :
    evalValue setup re n = rescue (re.run code) fun f => pure (.error {} f.message) := by
  unfold evalValue
  rw [h]
  refine congrArg (attempt (re.run code) >>= ·) (funext fun outcome => ?_)
  rcases outcome with ⟨_ | _ | _ | _⟩ | _ <;> rfl

/-- A file is run with its faults named after it. -/
theorem loadFile_eq (setup : Setup σ) (re : Reentry σ) (path : String) :
    loadFile setup re path = askHost (setup.host.readFile · path) >>= fun contents =>
      match contents with
      | .error reason => fail (.load path (.runtime (.unreadable reason)))
      | .ok source =>
        match setup.read source with
        | .error f => fail (.load path f)
        | .ok code => rescue (re.run code) fun f => fail (.load path f) := by
  refine congrArg (askHost (setup.host.readFile · path) >>= ·) (funext fun contents => ?_)
  cases contents with
  | error reason => rfl
  | ok source =>
    dsimp only
    cases setup.read source with
    | error f => rfl
    | ok code =>
      refine congrArg (attempt (re.run code) >>= ·) (funext fun outcome => ?_)
      rcases outcome with ⟨_ | _ | _ | _⟩ | _ <;> rfl

theorem execute_singleton (setup : Setup σ) (re : Reentry σ) (n : Node) :
    execute setup re [n] = evalNode setup re n := by
  funext s
  cases h : evalNode setup re n s with
  | mk r s' =>
    cases r with
    | ok value => exact bind_of_ok h
    | error e => exact bind_of_error h

theorem withRoom_run (setup : Setup σ) (run : Nat → List Node → Eval σ Node) (room : Nat) :
    (setup.withRoom run room).run = run room := by
  cases room with
  | zero => rfl
  | succ room => rfl

/-- A procedure is entered only where fewer frames are active than the settings allow. -/
theorem withRoom_enter (setup : Setup σ) (run : Nat → List Node → Eval σ Node) (active : Nat)
    (name : String) (bindings : Table Node) (body : List Node) :
    (setup.withRoom run (setup.settings.maxDepth - active)).enter name bindings body =
      if active < setup.settings.maxDepth then
        inFrame name bindings (execute setup
          (setup.withRoom run (setup.settings.maxDepth - (active + 1))) body)
      else fail (.recursionLimit setup.settings.maxDepth) := by
  by_cases h : active < setup.settings.maxDepth
  · obtain ⟨room, hroom⟩ : ∃ room, setup.settings.maxDepth - active = room + 1 :=
      ⟨setup.settings.maxDepth - (active + 1), by omega⟩
    have hnext : setup.settings.maxDepth - (active + 1) = room := by omega
    rw [if_pos h, hroom, hnext]
    rfl
  · have hroom : setup.settings.maxDepth - active = 0 := by omega
    rw [if_neg h, hroom]
    rfl

namespace Congruence

variable {setup : Setup σ} {setup' : Setup τ} {re : Reentry σ} {re' : Reentry τ}

/-- Two reentries are related when they enter procedures, run programs and end alike. -/
structure Reenters (c : Congruence setup setup') (re : Reentry σ) (re' : Reentry τ) : Prop where
  enter (name : String) (bindings : Table Node) (body : List Node) :
    c.rel (re.enter name bindings body) (re'.enter name bindings body)
  run (program : List Node) : c.rel (re.run program) (re'.run program)
  leave {status : Nat} : status ≤ 255 → c.rel (re.leave status) (re'.leave status)

variable (c : Congruence setup setup')

theorem ofExcept {α : Type} (r : Except Fault α) :
    c.rel (Eval.ofExcept r : Eval σ α) (Eval.ofExcept r) := by
  cases r with
  | ok a => exact c.pure a
  | error f => exact c.fail f

theorem runShown (commands : List Command) (input : Option String) :
    c.rel (setup.runShown commands input) (setup'.runShown commands input) :=
  c.bind (c.pipeline commands input .inherit) fun _ => c.pure _

theorem capture (commands : List Command) :
    c.rel (Eval.capture setup commands) (Eval.capture setup' commands) :=
  c.bind (c.pipeline commands none .capture) fun _ => c.pure _

theorem evalLeaf (n : Node) : c.rel (Eval.evalLeaf n : Eval σ Node) (Eval.evalLeaf n) := by
  unfold Eval.evalLeaf
  split
  · next s name =>
    split
    · exact c.pure _
    · exact (c.bind (c.lookup name) fun found => c.pure (found.getD (.identifier s name)) :)
  · exact c.pure _

theorem evalDefined (args : List Node) :
    c.rel (Eval.evalDefined setup args) (Eval.evalDefined setup' args) := by
  unfold Eval.evalDefined
  split
  · next name => exact (c.bind (c.defined name) fun found => c.pure (Node.ofBool found) :)
  · next name => exact (c.bind (c.defined name) fun found => c.pure (Node.ofBool found) :)
  · next name => exact (c.bind (c.defined name) fun found => c.pure (Node.ofBool found) :)
  · exact c.fail _
  · exact c.fail _

/-! ## Calls -/

theorem invoke (hre : c.Reenters re re') (name : String) (p : Procedure) (args : List Node) :
    c.rel (re.invoke name p args) (re'.invoke name p args) := by
  unfold Reentry.invoke
  split
  · exact hre.enter _ _ _
  · exact c.fail _

theorem codeOf_eq (c : Congruence setup setup') (n : Node) : codeOf setup' n = codeOf setup n := by
  cases n with
  | string _ source => exact c.read source
  | _ => rfl

theorem evalValue (hre : c.Reenters re re') (n : Node) :
    c.rel (Eval.evalValue setup re n) (Eval.evalValue setup' re' n) := by
  cases hcode : codeOf setup n with
  | error f =>
    unfold Eval.evalValue
    rw [c.codeOf_eq, hcode]
    exact c.pure _
  | ok code =>
    rw [evalValue_of_ok hcode, evalValue_of_ok ((c.codeOf_eq n).trans hcode)]
    exact c.rescue (hre.run code) fun f => c.pure _

theorem readValue_eq (c : Congruence setup setup') (n : Node) :
    readValue setup' n = readValue setup n := by
  simp only [readValue, c.read]

theorem loadFile (hre : c.Reenters re re') (path : String) :
    c.rel (Eval.loadFile setup re path) (Eval.loadFile setup' re' path) := by
  rw [loadFile_eq, loadFile_eq]
  refine c.bind (c.readFile path) fun contents => ?_
  cases contents with
  | error reason => exact c.fail _
  | ok source =>
    dsimp only
    rw [c.read]
    cases setup.read source with
    | error f => exact c.fail _
    | ok code => exact c.rescue (hre.run code) fun f => c.fail _

theorem exitWith {leave : Nat → Eval σ Node} {leave' : Nat → Eval τ Node}
    (h : ∀ {status}, status ≤ 255 → c.rel (leave status) (leave' status)) (args : List Node) :
    c.rel (Eval.exitWith leave args) (Eval.exitWith leave' args) := by
  unfold Eval.exitWith
  split
  · exact h (by decide)
  · refine c.bind (c.ofExcept _) fun status => ?_
    split
    · next hstatus =>
      simp only [Bool.and_eq_true, decide_eq_true_eq] at hstatus
      exact h (by omega)
    · exact c.fail _
  · exact c.fail _

mutual

theorem call (hre : c.Reenters re re') (callee : Callee) (args : List Node) :
    c.rel (Eval.call setup re callee args) (Eval.call setup' re' callee args) := by
  rw [Eval.call.eq_def, Eval.call.eq_def]
  match callee with
  | .value n => exact c.pure n
  | .procedure name p => exact c.invoke hre name p args
  | .tool t => exact c.tool t args
  | .program path => exact c.runShown _ _
  | .builtin .sequence => exact c.pure _
  | .builtin .exit => exact c.exitWith hre.leave args
  | .builtin .typeof =>
    dsimp only
    split
    · exact c.pure _
    · exact c.fail _
  | .builtin .eval =>
    dsimp only
    split
    · exact c.evalValue hre _
    · exact c.fail _
  | .builtin .parse =>
    dsimp only
    split
    · rw [c.readValue_eq]
      exact c.ofExcept _
    · exact c.fail _
  | .builtin .load =>
    dsimp only
    split
    · exact c.loadFile hre _
    · exact c.fail _
  | .builtin .map =>
    dsimp only
    split
    · next f _ items => exact c.bind (mapItems hre f items) fun _ => c.pure _
    · exact c.fail _
    · exact c.fail _
  | .builtin .filter =>
    dsimp only
    split
    · next f _ items => exact c.bind (filterItems hre f items) fun _ => c.pure _
    · exact c.fail _
    · exact c.fail _
  | .builtin .apply =>
    dsimp only
    split
    · next f _ items => exact callNode hre f items
    · exact c.fail _
    · exact c.fail _
termination_by 3 * sizeOf args

theorem callNode (hre : c.Reenters re re') (f : Node) (args : List Node) :
    c.rel (Eval.callNode setup re f args) (Eval.callNode setup' re' f args) := by
  rw [callNode_eq, callNode_eq]
  exact c.bind (c.calleeOfNode f args.isEmpty) fun callee => call hre callee args
termination_by 3 * sizeOf args + 1

theorem mapItems (hre : c.Reenters re re') (f : Node) (items : List Node) :
    c.rel (Eval.mapItems setup re f items) (Eval.mapItems setup' re' f items) := by
  match items with
  | [] =>
    rw [Eval.mapItems, Eval.mapItems]
    exact c.pure _
  | item :: rest =>
    rw [Eval.mapItems, Eval.mapItems]
    refine c.bind (callNode hre f [item]) fun result => ?_
    exact c.bind (mapItems hre f rest) fun results => c.pure _
termination_by 3 * sizeOf items + 2
decreasing_by
  · exact measure_item item rest
  · exact measure_rest item rest

theorem filterItems (hre : c.Reenters re re') (f : Node) (items : List Node) :
    c.rel (Eval.filterItems setup re f items) (Eval.filterItems setup' re' f items) := by
  match items with
  | [] =>
    rw [Eval.filterItems, Eval.filterItems]
    exact c.pure _
  | item :: rest =>
    rw [Eval.filterItems, Eval.filterItems]
    refine c.bind (callNode hre f [item]) fun result => ?_
    exact c.bind (filterItems hre f rest) fun kept => c.pure _
termination_by 3 * sizeOf items + 2
decreasing_by
  · exact measure_item item rest
  · exact measure_rest item rest

end

theorem callNamed (hre : c.Reenters re re') (name : String) (args : List Node) :
    c.rel (Eval.callNamed setup re name args) (Eval.callNamed setup' re' name args) := by
  rw [callNamed_eq, callNamed_eq]
  exact c.bind (c.calleeOfName name args.isEmpty) fun callee => c.call hre callee args

/-! ## Nodes -/

mutual

/-- The main statement: evaluation of a node is related to itself. -/
theorem evalNode (hre : c.Reenters re re') (n : Node) :
    c.rel (Eval.evalNode setup re n) (Eval.evalNode setup' re' n) := by
  match n with
  | .list s items =>
    simp only [Eval.evalNode]
    split
    · exact c.pure _
    · exact evalCall hre items
  | .string .. | .number .. | .boolean .. | .function .. | .operator .. | .identifier ..
  | .command .. | .commandResult .. | .error .. | .rawAst .. | .defunc .. =>
    simp only [Eval.evalNode]
    exact c.evalLeaf _

theorem evalArgs (hre : c.Reenters re re') (args : List Node) :
    c.rel (Eval.evalArgs setup re args) (Eval.evalArgs setup' re' args) := by
  match args with
  | [] => exact c.pure _
  | n :: rest =>
    refine c.bind (evalNode hre n) fun value => ?_
    exact c.bind (evalArgs hre rest) fun values => c.pure _

theorem evalCall (hre : c.Reenters re re') (items : List Node) :
    c.rel (Eval.evalCall setup re items) (Eval.evalCall setup' re' items) := by
  match items with
  | [] => exact c.fail _
  | .operator _ name :: args =>
    simp only [Eval.evalCall]
    split
    · exact evalLet hre args
    · exact evalIf hre args
    · exact evalEvery hre args
    · exact evalSome hre args
    · exact c.evalDefined args
    · exact evalClauses hre args
    · exact evalMatch hre args
    · exact evalHereString hre args
    · exact c.bind (evalPipeline hre args) fun commands => c.runShown commands none
    · split
      · exact c.bind (evalStage hre [] args) fun command => c.capture [command]
      · exact c.bind (evalLone hre args) fun commands => c.capture commands
    · exact c.bind (evalArgs hre args) fun values => c.callNamed hre name values
  | .function _ params body :: args =>
    simp only [Eval.evalCall]
    exact c.bind (evalArgs hre args) fun values => c.invoke hre _ _ values
  | .list s items :: args =>
    simp only [Eval.evalCall]
    split
    · exact c.bind (evalStage hre [.list s items] args) fun command => c.runShown [command] none
    · refine c.bind (evalNode hre (.list s items)) fun f => ?_
      exact c.bind (evalArgs hre args) fun values => c.callNode hre f values
  | .string .. :: args | .number .. :: args | .boolean .. :: args | .identifier .. :: args
  | .command .. :: args | .commandResult .. :: args | .error .. :: args | .rawAst .. :: args
  | .defunc .. :: args =>
    simp only [Eval.evalCall]
    refine c.bind (evalNode hre _) fun f => ?_
    exact c.bind (evalArgs hre args) fun values => c.callNode hre f values

theorem evalLet (hre : c.Reenters re re') (args : List Node) :
    c.rel (Eval.evalLet setup re args) (Eval.evalLet setup' re' args) := by
  match args with
  | [flag, name, n] =>
    simp only [Eval.evalLet]
    split
    · refine c.bind (c.ofExcept _) fun name => ?_
      exact c.constant name (evalNode hre n)
    · exact c.fail _
  | [name, n] =>
    refine c.bind (c.ofExcept _) fun name => ?_
    exact c.bind (evalNode hre n) fun value => c.setVariable name value
  | [] | [_] | _ :: _ :: _ :: _ :: _ => exact c.fail _

theorem evalIf (hre : c.Reenters re re') (args : List Node) :
    c.rel (Eval.evalIf setup re args) (Eval.evalIf setup' re' args) := by
  match args with
  | [test, yes] =>
    refine c.bind (evalNode hre test) fun value => ?_
    split
    · exact evalNode hre yes
    · exact c.pure _
  | [test, yes, no] =>
    refine c.bind (evalNode hre test) fun value => ?_
    split
    · exact evalNode hre yes
    · exact evalNode hre no
  | [] | [_] | _ :: _ :: _ :: _ :: _ => exact c.fail _

theorem evalEvery (hre : c.Reenters re re') (args : List Node) :
    c.rel (Eval.evalEvery setup re args) (Eval.evalEvery setup' re' args) := by
  match args with
  | [] => exact c.pure _
  | n :: rest =>
    refine c.bind (evalNode hre n) fun value => ?_
    split
    · exact evalEvery hre rest
    · exact c.pure _

theorem evalSome (hre : c.Reenters re re') (args : List Node) :
    c.rel (Eval.evalSome setup re args) (Eval.evalSome setup' re' args) := by
  match args with
  | [] => exact c.pure _
  | n :: rest =>
    refine c.bind (evalNode hre n) fun value => ?_
    split
    · exact c.pure _
    · exact evalSome hre rest

theorem evalClauses (hre : c.Reenters re re') (args : List Node) :
    c.rel (Eval.evalClauses setup re args) (Eval.evalClauses setup' re' args) := by
  match args with
  | [] => exact c.pure _
  | .list _ [test, body] :: rest =>
    refine c.bind (evalNode hre test) fun value => ?_
    split
    · exact evalNode hre body
    · exact evalClauses hre rest
  | .list _ [] :: _ | .list _ [_] :: _ | .list _ (_ :: _ :: _ :: _) :: _ => exact c.fail _
  | .string .. :: _ | .number .. :: _ | .boolean .. :: _ | .function .. :: _
  | .operator .. :: _ | .identifier .. :: _ | .command .. :: _ | .commandResult .. :: _
  | .error .. :: _ | .rawAst .. :: _ | .defunc .. :: _ => exact c.fail _

theorem evalMatch (hre : c.Reenters re re') (args : List Node) :
    c.rel (Eval.evalMatch setup re args) (Eval.evalMatch setup' re' args) := by
  match args with
  | [] => exact c.fail _
  | n :: branches =>
    exact c.bind (evalNode hre n) fun scrutinee => evalBranches hre scrutinee branches

theorem evalBranches (hre : c.Reenters re re') (scrutinee : Node) (branches : List Node) :
    c.rel (Eval.evalBranches setup re scrutinee branches)
      (Eval.evalBranches setup' re' scrutinee branches) := by
  match branches with
  | [] => exact c.pure _
  | .list _ [pattern, body] :: rest =>
    refine c.bind (evalPattern hre scrutinee pattern) fun found => ?_
    cases found with
    | some captures => exact c.bind (c.bindAll captures) fun _ => evalNode hre body
    | none => exact evalBranches hre scrutinee rest
  | .list _ [] :: _ | .list _ [_] :: _ | .list _ (_ :: _ :: _ :: _) :: _ => exact c.fail _
  | .string .. :: _ | .number .. :: _ | .boolean .. :: _ | .function .. :: _
  | .operator .. :: _ | .identifier .. :: _ | .command .. :: _ | .commandResult .. :: _
  | .error .. :: _ | .rawAst .. :: _ | .defunc .. :: _ => exact c.fail _

theorem evalPattern (hre : c.Reenters re re') (scrutinee pattern : Node) :
    c.rel (Eval.evalPattern setup re scrutinee pattern)
      (Eval.evalPattern setup' re' scrutinee pattern) := by
  match pattern with
  | .list s [head, operand] =>
    simp only [Eval.evalPattern]
    split
    · exact c.pure _
    · split
      · exact c.bind (evalNode hre operand) fun value => c.ofExcept _
      · exact c.bind (evalCall hre [head, operand]) fun value => c.pure _
  | .list s [head, capture, operand] =>
    simp only [Eval.evalPattern]
    split
    · exact c.pure _
    · split
      · exact c.bind (evalNode hre operand) fun value => c.ofExcept _
      · split
        · exact c.bind (c.ofExcept _) fun captures => c.pure _
        · exact c.bind (evalCall hre [head, capture, operand]) fun value => c.pure _
  | .list s [] =>
    simp only [Eval.evalPattern]
    split
    · exact c.pure _
    · exact c.bind (evalCall hre []) fun value => c.pure _
  | .list s [a] =>
    simp only [Eval.evalPattern]
    split
    · exact c.pure _
    · exact c.bind (evalCall hre [a]) fun value => c.pure _
  | .list s (a :: b :: d :: e :: rest) =>
    simp only [Eval.evalPattern]
    split
    · exact c.pure _
    · exact c.bind (evalCall hre (a :: b :: d :: e :: rest)) fun value => c.pure _
  | .string .. | .number .. | .boolean .. | .function .. | .operator .. | .identifier ..
  | .command .. | .commandResult .. | .error .. | .rawAst .. | .defunc .. =>
    simp only [Eval.evalPattern]
    split
    · exact c.pure _
    · exact c.bind (c.evalLeaf _) fun value => c.pure _

theorem evalLone (hre : c.Reenters re re') (args : List Node) :
    c.rel (Eval.evalLone setup re args) (Eval.evalLone setup' re' args) := by
  match args with
  | [n] => exact evalCommands hre n
  | [] | _ :: _ :: _ => exact c.fail _

theorem evalHereString (hre : c.Reenters re re') (args : List Node) :
    c.rel (Eval.evalHereString setup re args) (Eval.evalHereString setup' re' args) := by
  match args with
  | [text, n] =>
    refine c.bind (evalNode hre text) fun text => ?_
    exact c.bind (evalCommands hre n) fun commands => c.runShown commands _
  | [] | [_] | _ :: _ :: _ :: _ => exact c.fail _

theorem evalCommands (hre : c.Reenters re re') (n : Node) :
    c.rel (Eval.evalCommands setup re n) (Eval.evalCommands setup' re' n) := by
  match n with
  | .list s (head :: rest) =>
    simp only [Eval.evalCommands]
    split
    · exact c.fail _
    · split
      · exact evalPipeline hre rest
      · exact c.bind (evalStage hre [] (head :: rest)) fun command => c.pure _
  | .list _ [] | .string .. | .number .. | .boolean .. | .function .. | .operator ..
  | .identifier .. | .command .. | .commandResult .. | .error .. | .rawAst .. | .defunc .. =>
    exact c.fail _

theorem evalPipeline (hre : c.Reenters re re') (args : List Node) :
    c.rel (Eval.evalPipeline setup re args) (Eval.evalPipeline setup' re' args) := by
  match args with
  | [] => exact c.fail _
  | n :: rest =>
    refine c.bind (evalCommand hre n) fun command => ?_
    exact c.bind (evalStages hre rest) fun commands => c.pure _

theorem evalStages (hre : c.Reenters re re') (args : List Node) :
    c.rel (Eval.evalStages setup re args) (Eval.evalStages setup' re' args) := by
  match args with
  | [] => exact c.pure _
  | n :: rest =>
    refine c.bind (evalCommand hre n) fun command => ?_
    exact c.bind (evalStages hre rest) fun commands => c.pure _

theorem evalCommand (hre : c.Reenters re re') (n : Node) :
    c.rel (Eval.evalCommand setup re n) (Eval.evalCommand setup' re' n) := by
  match n with
  | .list s (head :: rest) =>
    simp only [Eval.evalCommand]
    split
    · exact c.fail _
    · exact evalStage hre [] (head :: rest)
  | .list _ [] | .string .. | .number .. | .boolean .. | .function .. | .operator ..
  | .identifier .. | .command .. | .commandResult .. | .error .. | .rawAst .. | .defunc .. =>
    exact c.fail _

theorem evalStage (hre : c.Reenters re re') (overrides items : List Node) :
    c.rel (Eval.evalStage setup re overrides items)
      (Eval.evalStage setup' re' overrides items) := by
  match items with
  | [] => exact c.fail _
  | head :: rest =>
    simp only [Eval.evalStage]
    split
    · exact evalStage hre (overrides ++ [head]) rest
    · refine c.bind (c.ofExcept _) fun env => ?_
      refine c.bind (evalName hre head) fun name => ?_
      refine c.bind (c.programPath name) fun program => ?_
      exact c.bind (evalArgs hre rest) fun values => c.pure _

theorem evalName (hre : c.Reenters re re') (n : Node) :
    c.rel (Eval.evalName setup re n) (Eval.evalName setup' re' n) := by
  match n with
  | .operator _ name => exact c.pure name
  | .list s items =>
    simp only [Eval.evalName]
    split
    · exact c.pure _
    · exact c.bind (evalCall hre items) fun value => c.pure _
  | .string .. | .number .. | .boolean .. | .function .. | .identifier .. | .command ..
  | .commandResult .. | .error .. | .rawAst .. | .defunc .. =>
    simp only [Eval.evalName]
    exact c.bind (c.evalLeaf _) fun value => c.pure _

end

theorem evalSequence (hre : c.Reenters re re') (last : Node) (program : List Node) :
    c.rel (Eval.evalSequence setup re last program)
      (Eval.evalSequence setup' re' last program) := by
  induction program generalizing last with
  | nil => exact c.pure last
  | cons n rest ih => exact c.bind (c.evalNode hre n) fun value => ih value

theorem execute (hre : c.Reenters re re') (program : List Node) :
    c.rel (Eval.execute setup re program) (Eval.execute setup' re' program) :=
  c.evalSequence hre _ program

/-! ## Nesting -/

section Nesting

variable {ι : Type} {family : ι → Congruence setup setup'}

/-- A family of relations goes through calls of procedures when what all of them relate is
related by each inside a frame, and through requests to exit. -/
structure Frames (family : ι → Congruence setup setup') : Prop where
  inFrame (i : ι) (name : String) (bindings : Table Node) {x : Eval σ Node} {x' : Eval τ Node} :
    (∀ j, (family j).rel x x') →
      (family i).rel (inFrame name bindings x) (inFrame name bindings x')
  exit (i : ι) (status : Nat) :
    (family i).rel (Eval.halt (.exit status) : Eval σ Node) (Eval.halt (.exit status))

theorem withRoom (hf : Frames family)
    (hdepth : setup'.settings.maxDepth = setup.settings.maxDepth)
    {run : Nat → List Node → Eval σ Node} {run' : Nat → List Node → Eval τ Node}
    (hrun : ∀ i room program, (family i).rel (run room program) (run' room program))
    (room : Nat) (i : ι) :
    (family i).Reenters (setup.withRoom run room) (setup'.withRoom run' room) := by
  induction room generalizing i with
  | zero =>
    refine ⟨fun _ _ _ => ?_, hrun i 0, fun _ => hf.exit i _⟩
    simp only [Setup.withRoom, hdepth]
    exact (family i).fail _
  | succ room ih =>
    refine ⟨fun name bindings body => ?_, hrun i (room + 1), fun _ => hf.exit i _⟩
    -- The body runs among other callers, so it has to be related by the whole family.
    exact hf.inFrame i name bindings fun j => (family j).execute (ih j) body

theorem nested (hf : Frames family)
    (hdepth : setup'.settings.maxDepth = setup.settings.maxDepth)
    (budget : Nat) (i : ι) (room : Nat) (program : List Node) :
    (family i).rel (setup.nested budget room program) (setup'.nested budget room program) := by
  induction budget generalizing i room program with
  | zero => exact (family i).exhausted
  | succ budget ih =>
    exact (family i).execute (withRoom hf hdepth (fun i room => ih i room) room i) program

theorem reentry (hf : Frames family)
    (hdepth : setup'.settings.maxDepth = setup.settings.maxDepth)
    (hbudget : setup'.budget = setup.budget) (active : Nat) (i : ι) :
    (family i).Reenters (setup.reentry active) (setup'.reentry active) := by
  unfold Setup.reentry
  rw [hdepth, hbudget]
  exact withRoom hf hdepth (fun i room => nested hf hdepth setup.budget i room) _ i

end Nesting

end Congruence

end Eval

end ExprShell
