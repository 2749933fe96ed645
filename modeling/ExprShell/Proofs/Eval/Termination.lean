/-
Evaluation ends because the number of active frames is bounded (`Session.evaluation_terminates`):
the plain recursion of `Direct` has an outcome for every node in every state, with any limit on
how deep `eval` and `load` nest, and without a limit wherever some limit is not reached. The
outcome is the one that the evaluator gives.

The evaluator itself carries the measure: the budget left for nested programs, then the frames
left, then the size of the values or of the code at hand. So the proof follows the evaluator, and
shows at each of its steps that the plain recursion takes the same one (`Follows`). Frames left
and frames active agree throughout, since no part of an evaluation changes their number.
-/
import ExprShell.Machine.Host
import ExprShell.Proofs.Eval.Direct
import ExprShell.Proofs.Eval.StackDiscipline

namespace ExprShell

variable {σ : Type} {α β : Type}

namespace Direct

theorem bind_of_ok {d : Direct σ α} {f : α → Direct σ β} {s s' : State σ} {a : α}
    (h : d s = some (.ok a, s')) : (d >>= f) s = f a s' := by
  change (d s).bind _ = _
  rw [h]
  rfl

theorem bind_of_error {d : Direct σ α} {f : α → Direct σ β} {s s' : State σ} {e : Halt}
    (h : d s = some (.error e, s')) : (d >>= f) s = some (.error e, s') := by
  change (d s).bind _ = _
  rw [h]
  rfl

/-! ## Following -/

/-- From some amount of fuel on, the recursion has the outcome. -/
def EndsIn (d : Nat → Direct σ α) (s : State σ) (outcome : Except Halt α × State σ) : Prop :=
  ∃ enough, ∀ fuel, enough ≤ fuel → d fuel s = some outcome

/-- What a recursion goes on with after some steps ends as the recursion does. -/
theorem EndsIn.shift {d d' : Nat → Direct σ α} {s : State σ} {outcome : Except Halt α × State σ}
    (h : EndsIn d' s outcome) (i j : Nat) (hd : ∀ fuel, d (fuel + i) s = d' (fuel + j) s) :
    EndsIn d s outcome := by
  obtain ⟨enough, hends⟩ := h
  refine ⟨enough + i, fun fuel hfuel => ?_⟩
  obtain ⟨rest, rfl⟩ : ∃ rest, fuel = rest + i := ⟨fuel - i, by omega⟩
  rw [hd]
  exact hends (rest + j) (by omega)

/-- Without a limit, an outcome counts only if it does not come from one. -/
def Settled (limit : Option Nat) (r : Except Halt α) : Prop :=
  limit = none → r ≠ .error .exhausted

/-- In a state, the recursion has the outcome of the computation, which leaves so many frames
active. -/
def FollowsAt (limit : Option Nat) (active : Nat) (d : Nat → Direct σ α) (x : Eval σ α)
    (s : State σ) : Prop :=
  (x s).2.env.frameDepth = active ∧ (Settled limit (x s).1 → EndsIn d s (x s))

/-- Wherever so many frames are active, the recursion follows the computation. -/
def Follows (limit : Option Nat) (active : Nat) (d : Nat → Direct σ α) (x : Eval σ α) : Prop :=
  ∀ s : State σ, s.env.frameDepth = active → FollowsAt limit active d x s

theorem FollowsAt.shift {limit : Option Nat} {active : Nat} {d d' : Nat → Direct σ α}
    {x : Eval σ α} {s : State σ} (h : FollowsAt limit active d' x s) (i j : Nat)
    (hd : ∀ fuel, d (fuel + i) s = d' (fuel + j) s) : FollowsAt limit active d x s :=
  ⟨h.1, fun hsettled => (h.2 hsettled).shift i j hd⟩

namespace Follows

variable {limit : Option Nat} {active : Nat}

theorem lift {x : Eval σ α} (hx : x.Keeping) : Follows limit active (fun _ => lift x) x :=
  fun s hs => ⟨(hx s).frameDepth.trans hs, fun _ => ⟨0, fun _ _ => rfl⟩⟩

theorem pure (a : α) : Follows limit active (fun _ => pure a : Nat → Direct σ α) (pure a) :=
  lift (Eval.Keeping.ofEnv fun _ => rfl)

theorem fail (f : Fault) :
    Follows limit active (fun _ => fail f : Nat → Direct σ α) (Eval.fail f) :=
  lift (Eval.Keeping.ofEnv fun _ => rfl)

/-- One call of the recursion. -/
theorem step {d : Nat → Direct σ α} {x : Eval σ α}
    (h : Follows limit active (fun fuel => d (fuel + 1)) x) : Follows limit active d x :=
  fun s hs => (h s hs).shift 1 0 fun _ => rfl

theorem bind {d : Nat → Direct σ α} {x : Eval σ α} {f : Nat → α → Direct σ β}
    {g : α → Eval σ β} (hx : Follows limit active d x)
    (hf : ∀ a, Follows limit active (f · a) (g a)) :
    Follows limit active (fun fuel => d fuel >>= f fuel) (x >>= g) := by
  intro s hs
  obtain ⟨hdepth, hd⟩ := hx s hs
  cases h : x s with
  | mk r s' =>
    rw [h] at hdepth hd
    cases r with
    | ok a =>
      -- A value never comes from the limit, so the first part ends whatever the second does.
      obtain ⟨enough, hends⟩ := hd fun _ => nofun
      obtain ⟨hdepth', hd'⟩ := hf a s' hdepth
      unfold FollowsAt
      rw [Eval.bind_of_ok h]
      refine ⟨hdepth', fun hsettled => ?_⟩
      obtain ⟨enough', hends'⟩ := hd' hsettled
      refine ⟨max enough enough', fun fuel hfuel => ?_⟩
      exact (bind_of_ok (hends fuel (by omega))).trans (hends' fuel (by omega))
    | error e =>
      unfold FollowsAt
      rw [Eval.bind_of_error h]
      refine ⟨hdepth, fun hsettled => ?_⟩
      obtain ⟨enough, hends⟩ := hd fun hl he => hsettled hl (by cases he; rfl)
      exact ⟨enough, fun fuel hfuel => bind_of_error (hends fuel hfuel)⟩

end Follows

/-! ## Calls -/

/-- Calls what a callee came down to. -/
def call (setup : Setup σ) (limit : Option Nat) (fuel : Nat) (callee : Callee)
    (args : List Node) : Direct σ Node :=
  match callee with
  | .value n => pure n
  | .procedure name p => invoke setup limit fuel name p args
  | .tool t => lift (t.call setup.host setup.settings.searchPath args)
  | .program path =>
    lift (setup.runShown [{ program := path, args := Node.argumentsOf args }] none)
  | .builtin b => callBuiltin setup limit fuel b args

variable {setup : Setup σ} {limit : Option Nat} {s : State σ}

theorem isCallable_eq (setup : Setup σ) (env : Environment) (name : String) :
    isCallable setup env name = (Callee.ofCallable? setup env name).isSome := by
  unfold isCallable Callee.ofCallable? Environment.hasProcedure
  cases Builtin.ofName? name with
  | some b => rfl
  | none =>
    cases env.procedure? name with
    | some p => rfl
    | none =>
      cases Tool.find? setup.tools name with
      | some t => rfl
      | none => rfl

/-- A name that can be called is called at once. -/
theorem callNamed_of_callable {name : String} {callee : Callee}
    (h : Callee.ofCallable? setup s.env name = some callee) (fuel : Nat) (args : List Node) :
    callNamed setup limit (fuel + 1) name args s = call setup limit fuel callee args s := by
  unfold Callee.ofCallable? at h
  cases hb : Builtin.ofName? name with
  | some b =>
    simp only [hb, Option.some.injEq] at h
    subst h
    simp only [callNamed, hb, call]
  | none =>
    cases hp : s.env.procedure? name with
    | some p =>
      simp only [hb, hp, Option.some.injEq] at h
      subst h
      simp only [callNamed, hb, hp, call]
    | none =>
      simp only [hb, hp, Option.map_eq_some_iff] at h
      obtain ⟨t, ht, rfl⟩ := h
      simp only [callNamed, hb, hp, ht, call]

theorem ofCallable?_eq_none {env : Environment} {name : String}
    (h : Callee.ofCallable? setup env name = none) :
    Builtin.ofName? name = none ∧ env.procedure? name = none ∧
      Tool.find? setup.tools name = none := by
  unfold Callee.ofCallable? at h
  cases hb : Builtin.ofName? name with
  | some b => simp [hb] at h
  | none =>
    cases hp : env.procedure? name with
    | some p => simp [hb, hp] at h
    | none => simpa [hb, hp] using h

/-- What a call that has been resolved goes on with. -/
def callResolved (setup : Setup σ) (limit : Option Nat) (fuel : Nat)
    (callee : Except Fault Callee) (args : List Node) : Direct σ Node :=
  match callee with
  | .ok callee => call setup limit fuel callee args
  | .error f => fail f

/-- A name that can only be a program's is one, or means nothing. -/
theorem callProgram_eq (limit : Option Nat) (fuel : Nat) (name : String) (args : List Node)
    (s : State σ) :
    lift (callProgram setup name none args) s =
      callResolved setup limit fuel (Callee.ofProgram setup s name) args s := by
  unfold lift callProgram Callee.ofProgram
  cases setup.program? s.host name with
  | some path => rfl
  | none => rfl

/-- A name bound to a value that passes no calls on is a program's, unless it stands alone. -/
theorem callProgram_bound_eq (limit : Option Nat) (fuel : Nat) (name : String) (bound : Node)
    (args : List Node) (s : State σ) :
    lift (callProgram setup name (some bound) args) s =
      callResolved setup limit fuel
        (if args.isEmpty && (setup.program? s.host name).isNone then .ok (.value bound)
          else Callee.ofProgram setup s name) args s := by
  unfold lift callProgram Callee.ofProgram
  cases setup.program? s.host name with
  | some path =>
    simp only [Option.isNone_some, Bool.and_false]
    rfl
  | none =>
    cases args with
    | nil => rfl
    | cons a rest => rfl

/-- What a bound value means, unless it is a function. -/
theorem ofBound_of_alias (name : String) {bound : Node} (bare : Bool)
    (h : ∀ stamp params body, bound ≠ .function stamp params body) :
    Callee.ofBound setup s name bound bare =
      match (Callee.aliasOf? bound).bind (Callee.ofCallable? setup s.env) with
      | some callee => .ok callee
      | none =>
        if bare && (setup.program? s.host name).isNone then .ok (.value bound)
        else Callee.ofProgram setup s name := by
  cases bound with
  | function stamp params body => exact absurd rfl (h stamp params body)
  | _ => rfl

/-- What a name means is found out by following it, at most once to another name. -/
theorem callNamed_eq (limit : Option Nat) (name : String) (args : List Node) (s : State σ) :
    ∃ j, ∀ fuel, callNamed setup limit (fuel + 2) name args s =
      callResolved setup limit (fuel + j) (Callee.ofName setup s name args.isEmpty) args s := by
  unfold Callee.ofName
  cases hcall : Callee.ofCallable? setup s.env name with
  | some callee => exact ⟨1, fun fuel => callNamed_of_callable hcall (fuel + 1) args⟩
  | none =>
    obtain ⟨hb, hp, ht⟩ := ofCallable?_eq_none hcall
    refine ⟨0, fun fuel => ?_⟩
    -- One step is for this name and one for the name that an alias leads to.
    change callNamed setup limit (fuel + 1 + 1) name args s = _
    generalize hfuel : fuel + 1 = next
    simp only [callNamed, hb, hp, ht]
    subst hfuel
    cases hbound : s.env.lookup name with
    | none => exact callProgram_eq limit fuel name args s
    | some bound =>
      dsimp only
      split
      · next hfunction =>
        cases hfunction
        rw [callNode]
        rfl
      · next hother hsame =>
        cases hsame
        rw [ofBound_of_alias name args.isEmpty hother]
        cases halias : Callee.aliasOf? bound with
        | none => exact callProgram_bound_eq limit fuel name bound args s
        | some target =>
          dsimp only [Option.bind_some]
          rw [isCallable_eq]
          cases htarget : Callee.ofCallable? setup s.env target with
          | none => exact callProgram_bound_eq limit fuel name bound args s
          | some callee => exact callNamed_of_callable htarget fuel args
      · next h => cases h

theorem callNode_eq (limit : Option Nat) (f : Node) (args : List Node) (s : State σ) :
    ∃ j, ∀ fuel, callNode setup limit (fuel + 3) f args s =
      callResolved setup limit (fuel + j) (Callee.ofNode setup s f args.isEmpty) args s := by
  cases f with
  | defunc _ name => exact callNamed_eq limit name args s
  | identifier _ name => exact callNamed_eq limit name args s
  | operator _ name => exact callNamed_eq limit name args s
  | string _ name => exact callNamed_eq limit name args s
  | _ => exact ⟨2, fun fuel => rfl⟩

/-! ## Every step follows -/

/-- Procedures and nested programs are followed. -/
structure Reenters (setup : Setup σ) (limit : Option Nat) (active : Nat) (re : Reentry σ) :
    Prop where
  invoke (name : String) (p : Procedure) (args : List Node) :
    Follows limit active (invoke setup limit · name p args) (re.invoke name p args)
  run (program : List Node) :
    Follows limit active (runNested setup limit · program) (re.run program)
  leave : re.leave = fun status => Eval.halt (.exit status)

/-- The outcome of `eval`: a fault is a value. -/
def evaluated : Except Halt Node → Except Halt Node
  | .error (.fault f) => .ok (.error {} f.message)
  | r => r

/-- The outcome of `load`: a fault names the file. -/
def loaded (path : String) : Except Halt Node → Except Halt Node
  | .error (.fault f) => .error (.fault (.load path f))
  | r => r

namespace Follows

variable {active : Nat} {re : Reentry σ}

theorem ofExcept (r : Except Fault α) :
    Follows limit active (fun _ => Direct.lift (Eval.ofExcept r) : Nat → Direct σ α)
      (Eval.ofExcept r) :=
  lift (Eval.Keeping.ofExcept r)

theorem runShown (commands : List Command) (input : Option String) :
    Follows limit active (fun _ => Direct.lift (setup.runShown commands input))
      (setup.runShown commands input) :=
  lift ((Eval.keepingCongruence setup).runShown commands input)

theorem capture (commands : List Command) :
    Follows limit active (fun _ => Direct.lift (Eval.capture setup commands))
      (Eval.capture setup commands) :=
  lift ((Eval.keepingCongruence setup).capture commands)

/-- An outcome may be replaced, unless it comes from the limit. -/
theorem attempt_bind {d : Nat → Direct σ α} {x : Eval σ α} (hx : Follows limit active d x)
    {g : Except Halt α → Except Halt β} (hg : g (.error .exhausted) = .error .exhausted)
    {d' : Nat → Direct σ β}
    (hd : ∀ fuel s r s', d fuel s = some (r, s') → d' fuel s = some (g r, s'))
    {next : Except Halt α → Eval σ β} (hnext : ∀ r s, next r s = (g r, s)) :
    Follows limit active d' (Eval.attempt x >>= next) := by
  intro s hs
  obtain ⟨hdepth, hfollows⟩ := hx s hs
  have houtcome : (Eval.attempt x >>= next) s = (g (x s).1, (x s).2) := hnext (x s).1 (x s).2
  unfold FollowsAt
  rw [houtcome]
  refine ⟨hdepth, fun hsettled => ?_⟩
  obtain ⟨enough, hends⟩ := hfollows fun hl he => hsettled hl (by rw [he, hg])
  exact ⟨enough, fun fuel hfuel => hd fuel s _ _ (hends fuel hfuel)⟩

theorem evalValue (hre : Reenters setup limit active re) (n : Node) :
    Follows limit active (Direct.evalValue setup limit · n) (Eval.evalValue setup re n) := by
  refine step ?_
  simp only [Direct.evalValue, Eval.evalValue]
  cases Eval.codeOf setup n with
  | error f => exact pure _
  | ok code =>
    refine attempt_bind (g := evaluated) (hre.run code) rfl (fun fuel s r s' h => ?_)
      fun r s => ?_
    · dsimp only
      rw [h]
      cases r with
      | ok value => rfl
      | error e =>
        cases e with
        | _ => rfl
    · cases r with
      | ok value => rfl
      | error e =>
        cases e with
        | _ => rfl

theorem loadFile (hre : Reenters setup limit active re) (path : String) :
    Follows limit active (Direct.loadFile setup limit · path) (Eval.loadFile setup re path) := by
  refine step ?_
  simp only [Direct.loadFile]
  refine bind (lift ((Eval.keepingCongruence setup).readFile path)) fun contents => ?_
  cases contents with
  | error reason => exact fail _
  | ok source =>
    dsimp only
    cases setup.read source with
    | error f => exact fail _
    | ok code =>
      refine attempt_bind (g := loaded path) (hre.run code) rfl (fun fuel s r s' h => ?_)
        fun r s => ?_
      · dsimp only
        rw [h]
        cases r with
        | ok value => rfl
        | error e =>
          cases e with
          | _ => rfl
      · cases r with
        | ok value => rfl
        | error e =>
          cases e with
          | _ => rfl

/-- A call is followed where the callee is found in a few steps and its call is followed. -/
theorem ofResolved {d : Nat → Direct σ Node} {find : State σ → Except Fault Callee}
    {args : List Node} (i : Nat)
    (hd : ∀ s, ∃ j, ∀ fuel,
      d (fuel + i) s = callResolved setup limit (fuel + j) (find s) args s)
    (hcall : ∀ callee, Follows limit active (Direct.call setup limit · callee args)
      (Eval.call setup re callee args)) :
    Follows limit active d
      (Eval.ask find >>= fun callee => Eval.call setup re callee args) := by
  intro s hs
  obtain ⟨j, hj⟩ := hd s
  unfold FollowsAt
  cases hcallee : find s with
  | ok callee =>
    rw [Eval.bind_of_ok (Eval.ask_of_ok hcallee)]
    rw [hcallee] at hj
    exact (hcall callee s hs).shift i j hj
  | error fault =>
    rw [Eval.bind_of_error (Eval.ask_of_error hcallee)]
    rw [hcallee] at hj
    exact (fail fault s hs).shift i j hj

/-- A builtin that calls a value on items. -/
theorem onItems {d : Nat → Node → List Node → Direct σ Node}
    {x : Node → List Node → Eval σ Node} (b : Builtin) (args : List Node) :
    (∀ f stamp items, args = [f, .list stamp items] →
      Follows limit active (d · f items) (x f items)) →
    Follows limit active
      (fun fuel => match args with
        | [f, .list _ items] => d fuel f items
        | [_, other] => Direct.fail (.wrongKind "list" other)
        | args => Direct.fail (.arity b.name 2 args.length))
      (match args with
        | [f, .list _ items] => x f items
        | [_, other] => Eval.fail (.wrongKind "list" other)
        | args => Eval.fail (.arity b.name 2 args.length)) := by
  intro h
  match args with
  | [f, .list stamp items] => exact h f stamp items rfl
  | [_, .string ..] | [_, .number ..] | [_, .boolean ..] | [_, .function ..]
  | [_, .operator ..] | [_, .identifier ..] | [_, .command ..] | [_, .commandResult ..]
  | [_, .error ..] | [_, .rawAst ..] | [_, .defunc ..] => exact fail _
  | [] | [_] => exact fail _
  | _ :: other :: _ :: _ =>
    cases other with
    | _ => exact fail _

mutual

/-- Where a call goes on to another one, the values at hand get smaller. -/
theorem call (hre : Reenters setup limit active re) (callee : Callee) (args : List Node) :
    Follows limit active (Direct.call setup limit · callee args)
      (Eval.call setup re callee args) := by
  rw [Eval.call.eq_def]
  match callee with
  | .value n => exact pure n
  | .procedure name p => exact hre.invoke name p args
  | .tool t => exact lift ((Eval.keepingCongruence setup).tool t args)
  | .program path => exact runShown _ _
  | .builtin b =>
    refine step ?_
    simp only [Direct.call, Direct.callBuiltin]
    cases b with
    | sequence => exact pure _
    | exit =>
      dsimp only
      rw [hre.leave]
      have hframes := Eval.keepingCongruence_frames setup
      exact lift ((Eval.keepingCongruence setup).exitWith (fun _ => hframes.exit () _) args)
    | typeof =>
      match args with
      | [n] => exact pure _
      | [] | _ :: _ :: _ => exact fail _
    | eval =>
      match args with
      | [n] => exact evalValue hre n
      | [] | _ :: _ :: _ => exact fail _
    | parse =>
      match args with
      | [n] => exact ofExcept _
      | [] | _ :: _ :: _ => exact fail _
    | load =>
      match args with
      | [path] => exact loadFile hre path.plain
      | [] | _ :: _ :: _ => exact fail _
    | map =>
      refine onItems .map args fun f stamp items hargs => ?_
      exact bind (mapItems hre f items) fun _ => pure _
    | filter =>
      refine onItems .filter args fun f stamp items hargs => ?_
      exact bind (filterItems hre f items) fun _ => pure _
    | apply => exact onItems .apply args fun f stamp items hargs => callNode hre f items
termination_by 3 * sizeOf args

theorem callNode (hre : Reenters setup limit active re) (f : Node) (args : List Node) :
    Follows limit active (Direct.callNode setup limit · f args)
      (Eval.callNode setup re f args) := by
  rw [Eval.callNode_eq]
  exact ofResolved 3 (callNode_eq limit f args) fun callee => call hre callee args
termination_by 3 * sizeOf args + 1

theorem mapItems (hre : Reenters setup limit active re) (f : Node) (items : List Node) :
    Follows limit active (Direct.mapItems setup limit · f items)
      (Eval.mapItems setup re f items) := by
  refine step ?_
  match items with
  | [] =>
    rw [Eval.mapItems]
    exact pure _
  | item :: rest =>
    rw [Eval.mapItems]
    refine bind (callNode hre f [item]) fun result => ?_
    exact bind (mapItems hre f rest) fun results => pure _
termination_by 3 * sizeOf items + 2
decreasing_by
  · exact Eval.measure_item item rest
  · exact Eval.measure_rest item rest

theorem filterItems (hre : Reenters setup limit active re) (f : Node) (items : List Node) :
    Follows limit active (Direct.filterItems setup limit · f items)
      (Eval.filterItems setup re f items) := by
  refine step ?_
  match items with
  | [] =>
    rw [Eval.filterItems]
    exact pure _
  | item :: rest =>
    rw [Eval.filterItems]
    refine bind (callNode hre f [item]) fun result => ?_
    exact bind (filterItems hre f rest) fun kept => pure _
termination_by 3 * sizeOf items + 2
decreasing_by
  · exact Eval.measure_item item rest
  · exact Eval.measure_rest item rest

end

theorem callNamed (hre : Reenters setup limit active re) (name : String) (args : List Node) :
    Follows limit active (Direct.callNamed setup limit · name args)
      (Eval.callNamed setup re name args) := by
  rw [Eval.callNamed_eq]
  exact ofResolved 2 (callNamed_eq limit name args) fun callee => call hre callee args

/-- Setting a constant starts no procedure. -/
theorem setConstant (name : String) (value : Node) :
    Follows limit active (fun _ => Direct.lift (Eval.setConstant name value) : Nat → Direct σ Node)
      (Eval.setConstant name value) := by
  intro s hs
  refine ⟨?_, fun _ => ⟨0, fun _ _ => rfl⟩⟩
  change ((Eval.ofExcept (s.env.defineConstant name value) >>= fun next =>
    Eval.modifyEnv (fun _ => next) >>= fun _ => Pure.pure value : Eval σ Node) s).2.env.frameDepth
      = active
  unfold Environment.defineConstant
  split
  · exact hs
  · exact hs

theorem checkConstant (name : String) :
    Follows limit active (fun _ => Direct.lift (Eval.checkConstant name) : Nat → Direct σ Unit)
      (Eval.checkConstant name) := by
  rw [Eval.checkConstant_eq]
  exact lift (Eval.Keeping.ask _)

theorem evalLeaf (setup : Setup σ) {d : Nat → Direct σ Node} (n : Node)
    (h : ∀ fuel, d (fuel + 1) = Direct.lift (Eval.evalLeaf n)) :
    Follows limit active d (Eval.evalLeaf n) := by
  refine step ?_
  simp only [h]
  exact lift ((Eval.keepingCongruence setup).evalLeaf n)

/-- A list that is quoted is its own value. -/
theorem ofQuoted {stamp : Stamp} (items : List Node) (hstamp : stamp.quoted = true) :
    Follows limit active (Direct.evalNode setup limit · (.list stamp items))
      (Pure.pure (.list stamp items)) := by
  refine step ?_
  simp only [Direct.evalNode, hstamp, if_true]
  exact pure _

/-- A list that is not quoted is evaluated as a call. -/
theorem ofCall {stamp : Stamp} {items : List Node} {x : Eval σ Node}
    (hstamp : ¬stamp.quoted = true)
    (h : Follows limit active (Direct.evalCall setup limit · items) x) :
    Follows limit active (Direct.evalNode setup limit · (.list stamp items)) x := by
  refine step ?_
  simp only [Direct.evalNode, if_neg hstamp]
  exact h

theorem evalEquality {pattern : Node} {x : Eval σ Node}
    (h : Follows limit active (Direct.evalNode setup limit · pattern) x) (scrutinee : Node) :
    Follows limit active (Direct.evalEquality setup limit · scrutinee pattern)
      (x >>= fun value => Pure.pure (if value.same scrutinee then some [] else none)) :=
  step (bind h fun _ => pure _)

/-- Leading data in a command are its variables. -/
theorem evalStage_data {head : Node} (hdata : head.isData = true) (overrides : List Node)
    {rest : List Node} {x : Eval σ Command}
    (h : Follows limit active (Direct.evalStage setup limit · (overrides ++ [head]) rest) x) :
    Follows limit active (Direct.evalStage setup limit · overrides (head :: rest)) x := by
  refine step ?_
  simp only [Direct.evalStage, if_pos hdata]
  exact h

/-- A substitution is given a single call, or a command without a call around it. -/
theorem evalSubstitution {args : List Node}
    (hstage : Follows limit active (Direct.evalStage setup limit · [] args)
      (Eval.evalStage setup re [] args))
    (hlone : ∀ n, args = [n] →
      Follows limit active (Direct.evalCommands setup limit · n) (Eval.evalCommands setup re n)) :
    Follows limit active (Direct.evalSubstitution setup limit · args)
      (if Node.spellCommand args then do
          let command ← Eval.evalStage setup re [] args
          Eval.capture setup [command]
        else do
          let commands ← Eval.evalLone setup re args
          Eval.capture setup commands) := by
  refine step ?_
  match args with
  | [] => exact fail _
  | [n] =>
    cases hcall : n.isCall with
    | true =>
      simp only [Direct.evalSubstitution, Node.spellCommand, hcall]
      exact bind (hlone n rfl) fun commands => capture commands
    | false =>
      simp only [Direct.evalSubstitution, Node.spellCommand, hcall]
      exact bind hstage fun command => capture [command]
  | _ :: _ :: _ => exact bind hstage fun command => capture [command]

mutual

/-- Where the evaluation of a node goes on to another one, the code at hand gets smaller. -/
theorem evalNode (hre : Reenters setup limit active re) (n : Node) :
    Follows limit active (Direct.evalNode setup limit · n) (Eval.evalNode setup re n) := by
  refine step ?_
  match n with
  | .list s items =>
    simp only [Direct.evalNode, Eval.evalNode]
    split
    · exact pure _
    · exact evalCall hre items
  | .string .. | .number .. | .boolean .. | .function .. | .operator .. | .identifier ..
  | .command .. | .commandResult .. | .error .. | .rawAst .. | .defunc .. =>
    simp only [Direct.evalNode, Eval.evalNode]
    exact evalLeaf setup _ fun _ => rfl

theorem evalArgs (hre : Reenters setup limit active re) (args : List Node) :
    Follows limit active (Direct.evalArgs setup limit · args) (Eval.evalArgs setup re args) := by
  refine step ?_
  match args with
  | [] => exact pure _
  | n :: rest =>
    refine bind (evalNode hre n) fun value => ?_
    exact bind (evalArgs hre rest) fun values => pure _

theorem evalCall (hre : Reenters setup limit active re) (items : List Node) :
    Follows limit active (Direct.evalCall setup limit · items) (Eval.evalCall setup re items) := by
  refine step ?_
  match items with
  | [] => exact fail _
  | .operator _ name :: args =>
    simp only [Direct.evalCall, Eval.evalCall]
    cases Form.ofName? name with
    | none => exact bind (evalArgs hre args) fun values => callNamed hre name values
    | some form =>
      dsimp only
      refine step ?_
      simp only [Direct.evalForm]
      cases form with
      | binding => exact evalLet hre args
      | conditional => exact evalIf hre args
      | conjunction => exact evalEvery hre args
      | disjunction => exact evalSome hre args
      | defined => exact lift ((Eval.keepingCongruence setup).evalDefined args)
      | clauses => exact evalClauses hre args
      | selection => exact evalMatch hre args
      | hereString => exact evalHereString hre args
      | pipeline => exact bind (evalPipeline hre args) fun commands => runShown commands none
      | substitution => exact evalSubstitution (evalStage hre [] args) (evalLone hre args)
  | .function _ params body :: args =>
    simp only [Direct.evalCall, Eval.evalCall]
    exact bind (evalArgs hre args) fun values => hre.invoke _ _ values
  | .list s items :: args =>
    simp only [Direct.evalCall, Eval.evalCall]
    split
    · next hdata =>
      have hstage := evalStage_data hdata [] (evalStage hre [.list s items] args)
      exact bind hstage fun command => runShown [command] none
    · refine bind (evalNode hre (.list s items)) fun f => ?_
      exact bind (evalArgs hre args) fun values => callNode hre f values
  | .string .. :: args | .number .. :: args | .boolean .. :: args | .identifier .. :: args
  | .command .. :: args | .commandResult .. :: args | .error .. :: args | .rawAst .. :: args
  | .defunc .. :: args =>
    simp only [Direct.evalCall, Eval.evalCall]
    refine bind (evalNode hre _) fun f => ?_
    exact bind (evalArgs hre args) fun values => callNode hre f values

theorem evalLet (hre : Reenters setup limit active re) (args : List Node) :
    Follows limit active (Direct.evalLet setup limit · args) (Eval.evalLet setup re args) := by
  refine step ?_
  match args with
  | [flag, name, n] =>
    simp only [Direct.evalLet, Eval.evalLet]
    split
    · refine bind (ofExcept _) fun name => ?_
      refine bind (checkConstant name) fun _ => ?_
      exact bind (evalNode hre n) fun value => setConstant name value
    · exact fail _
  | [name, n] =>
    refine bind (ofExcept _) fun name => ?_
    exact bind (evalNode hre n) fun value => lift (Eval.Keeping.setVariable name value)
  | [] | [_] | _ :: _ :: _ :: _ :: _ => exact fail _

theorem evalIf (hre : Reenters setup limit active re) (args : List Node) :
    Follows limit active (Direct.evalIf setup limit · args) (Eval.evalIf setup re args) := by
  refine step ?_
  match args with
  | [test, yes] =>
    refine bind (evalNode hre test) fun value => ?_
    split
    · exact evalNode hre yes
    · exact pure _
  | [test, yes, no] =>
    refine bind (evalNode hre test) fun value => ?_
    split
    · exact evalNode hre yes
    · exact evalNode hre no
  | [] | [_] | _ :: _ :: _ :: _ :: _ => exact fail _

theorem evalEvery (hre : Reenters setup limit active re) (args : List Node) :
    Follows limit active (Direct.evalEvery setup limit · args) (Eval.evalEvery setup re args) := by
  refine step ?_
  match args with
  | [] => exact pure _
  | n :: rest =>
    refine bind (evalNode hre n) fun value => ?_
    split
    · exact evalEvery hre rest
    · exact pure _

theorem evalSome (hre : Reenters setup limit active re) (args : List Node) :
    Follows limit active (Direct.evalSome setup limit · args) (Eval.evalSome setup re args) := by
  refine step ?_
  match args with
  | [] => exact pure _
  | n :: rest =>
    refine bind (evalNode hre n) fun value => ?_
    split
    · exact pure _
    · exact evalSome hre rest

theorem evalClauses (hre : Reenters setup limit active re) (args : List Node) :
    Follows limit active (Direct.evalClauses setup limit · args)
      (Eval.evalClauses setup re args) := by
  refine step ?_
  match args with
  | [] => exact pure _
  | .list _ [test, body] :: rest =>
    refine bind (evalNode hre test) fun value => ?_
    split
    · exact evalNode hre body
    · exact evalClauses hre rest
  | .list _ [] :: _ | .list _ [_] :: _ | .list _ (_ :: _ :: _ :: _) :: _ => exact fail _
  | .string .. :: _ | .number .. :: _ | .boolean .. :: _ | .function .. :: _
  | .operator .. :: _ | .identifier .. :: _ | .command .. :: _ | .commandResult .. :: _
  | .error .. :: _ | .rawAst .. :: _ | .defunc .. :: _ => exact fail _

theorem evalMatch (hre : Reenters setup limit active re) (args : List Node) :
    Follows limit active (Direct.evalMatch setup limit · args) (Eval.evalMatch setup re args) := by
  refine step ?_
  match args with
  | [] => exact fail _
  | n :: branches =>
    exact bind (evalNode hre n) fun scrutinee => evalBranches hre scrutinee branches

theorem evalBranches (hre : Reenters setup limit active re) (scrutinee : Node)
    (branches : List Node) :
    Follows limit active (Direct.evalBranches setup limit · scrutinee branches)
      (Eval.evalBranches setup re scrutinee branches) := by
  refine step ?_
  match branches with
  | [] => exact pure _
  | .list _ [pattern, body] :: rest =>
    refine bind (evalPattern hre scrutinee pattern) fun found => ?_
    cases found with
    | some captures =>
      refine bind (lift ((Eval.keepingCongruence setup).bindAll captures)) fun _ => ?_
      exact evalNode hre body
    | none => exact evalBranches hre scrutinee rest
  | .list _ [] :: _ | .list _ [_] :: _ | .list _ (_ :: _ :: _ :: _) :: _ => exact fail _
  | .string .. :: _ | .number .. :: _ | .boolean .. :: _ | .function .. :: _
  | .operator .. :: _ | .identifier .. :: _ | .command .. :: _ | .commandResult .. :: _
  | .error .. :: _ | .rawAst .. :: _ | .defunc .. :: _ => exact fail _

theorem evalPattern (hre : Reenters setup limit active re) (scrutinee pattern : Node) :
    Follows limit active (Direct.evalPattern setup limit · scrutinee pattern)
      (Eval.evalPattern setup re scrutinee pattern) := by
  refine step ?_
  match pattern with
  | .list s [head, operand] =>
    simp only [Direct.evalPattern, Eval.evalPattern]
    split
    · exact pure _
    · next hs =>
      cases Relation.ofHead? head with
      | some r => exact bind (evalNode hre operand) fun value => ofExcept _
      | none => exact evalEquality (ofCall hs (evalCall hre [head, operand])) scrutinee
  | .list s [head, capture, operand] =>
    simp only [Direct.evalPattern, Eval.evalPattern]
    split
    · exact pure _
    · next hs =>
      cases Relation.ofHead? head with
      | some r => exact bind (evalNode hre operand) fun value => ofExcept _
      | none =>
        dsimp only
        split
        · exact bind (ofExcept _) fun captures => pure _
        · exact evalEquality (ofCall hs (evalCall hre [head, capture, operand])) scrutinee
  | .list s [] =>
    simp only [Direct.evalPattern, Eval.evalPattern]
    split
    · exact pure _
    · next hs => exact evalEquality (ofCall hs (evalCall hre [])) scrutinee
  | .list s [a] =>
    simp only [Direct.evalPattern, Eval.evalPattern]
    split
    · exact pure _
    · next hs => exact evalEquality (ofCall hs (evalCall hre [a])) scrutinee
  | .list s (a :: b :: d :: e :: rest) =>
    simp only [Direct.evalPattern, Eval.evalPattern]
    split
    · exact pure _
    · next hs => exact evalEquality (ofCall hs (evalCall hre (a :: b :: d :: e :: rest))) scrutinee
  | .string .. | .number .. | .boolean .. | .function .. | .operator .. | .identifier ..
  | .command .. | .commandResult .. | .error .. | .rawAst .. | .defunc .. =>
    simp only [Direct.evalPattern, Eval.evalPattern]
    split
    · exact pure _
    · exact evalEquality (evalLeaf setup _ (fun _ => rfl)) scrutinee

theorem evalHereString (hre : Reenters setup limit active re) (args : List Node) :
    Follows limit active (Direct.evalHereString setup limit · args)
      (Eval.evalHereString setup re args) := by
  refine step ?_
  match args with
  | [text, n] =>
    refine bind (evalNode hre text) fun text => ?_
    exact bind (evalCommands hre n) fun commands => runShown commands _
  | [] | [_] | _ :: _ :: _ :: _ => exact fail _

/-- The one call that a substitution may be given. -/
theorem evalLone (hre : Reenters setup limit active re) (args : List Node) :
    ∀ n, args = [n] →
      Follows limit active (Direct.evalCommands setup limit · n)
        (Eval.evalCommands setup re n) := by
  match args with
  | [n] =>
    rintro _ ⟨⟩
    exact evalCommands hre n
  | [] | _ :: _ :: _ => exact nofun

theorem evalCommands (hre : Reenters setup limit active re) (n : Node) :
    Follows limit active (Direct.evalCommands setup limit · n) (Eval.evalCommands setup re n) := by
  refine step ?_
  match n with
  | .list s (head :: rest) =>
    simp only [Direct.evalCommands, Eval.evalCommands]
    split
    · exact fail _
    · split
      · exact evalPipeline hre rest
      · exact bind (evalStage hre [] (head :: rest)) fun command => pure _
  | .list _ [] | .string .. | .number .. | .boolean .. | .function .. | .operator ..
  | .identifier .. | .command .. | .commandResult .. | .error .. | .rawAst .. | .defunc .. =>
    exact fail _

theorem evalPipeline (hre : Reenters setup limit active re) (args : List Node) :
    Follows limit active (Direct.evalPipeline setup limit · args)
      (Eval.evalPipeline setup re args) := by
  refine step ?_
  match args with
  | [] => exact fail _
  | n :: rest =>
    refine step ?_
    refine bind (evalCommand hre n) fun command => ?_
    exact bind (evalStages hre rest) fun commands => pure _

theorem evalStages (hre : Reenters setup limit active re) (args : List Node) :
    Follows limit active (Direct.evalStages setup limit · args)
      (Eval.evalStages setup re args) := by
  refine step ?_
  match args with
  | [] => exact pure _
  | n :: rest =>
    refine bind (evalCommand hre n) fun command => ?_
    exact bind (evalStages hre rest) fun commands => pure _

theorem evalCommand (hre : Reenters setup limit active re) (n : Node) :
    Follows limit active (Direct.evalCommand setup limit · n) (Eval.evalCommand setup re n) := by
  refine step ?_
  match n with
  | .list s (head :: rest) =>
    simp only [Direct.evalCommand, Eval.evalCommand]
    split
    · exact fail _
    · exact evalStage hre [] (head :: rest)
  | .list _ [] | .string .. | .number .. | .boolean .. | .function .. | .operator ..
  | .identifier .. | .command .. | .commandResult .. | .error .. | .rawAst .. | .defunc .. =>
    exact fail _

theorem evalStage (hre : Reenters setup limit active re) (overrides items : List Node) :
    Follows limit active (Direct.evalStage setup limit · overrides items)
      (Eval.evalStage setup re overrides items) := by
  refine step ?_
  match items with
  | [] => exact fail _
  | head :: rest =>
    simp only [Direct.evalStage, Eval.evalStage]
    split
    · exact evalStage hre (overrides ++ [head]) rest
    · refine bind (ofExcept _) fun env => ?_
      refine bind (evalName hre head) fun name => ?_
      refine bind (lift (Eval.Keeping.programPath setup name)) fun program => ?_
      exact bind (evalArgs hre rest) fun values => pure _

theorem evalName (hre : Reenters setup limit active re) (n : Node) :
    Follows limit active (Direct.evalName setup limit · n) (Eval.evalName setup re n) := by
  refine step ?_
  match n with
  | .operator _ name => exact pure name
  | .list s items =>
    simp only [Direct.evalName, Eval.evalName]
    split
    · next hs =>
      exact bind (ofQuoted items hs) fun value : Node => pure value.plain
    · next hs => exact bind (ofCall hs (evalCall hre items)) fun value => pure _
  | .string .. | .number .. | .boolean .. | .function .. | .identifier .. | .command ..
  | .commandResult .. | .error .. | .rawAst .. | .defunc .. =>
    simp only [Direct.evalName, Eval.evalName]
    exact bind (evalLeaf setup _ (fun _ => rfl)) fun value => pure _

end

theorem evalSequence (hre : Reenters setup limit active re) (last : Node)
    (program : List Node) :
    Follows limit active (Direct.evalSequence setup limit · last program)
      (Eval.evalSequence setup re last program) := by
  induction program generalizing last with
  | nil => exact step (pure last)
  | cons n rest ih => exact step (bind (evalNode hre n) fun value => ih value)

theorem execute (hre : Reenters setup limit active re) (program : List Node) :
    Follows limit active (Direct.execute setup limit · program)
      (Eval.execute setup re program) :=
  evalSequence hre _ program

/-! ## Nesting -/

/-- With a limit every outcome counts. -/
theorem ofLimit {k k' : Nat} {d : Nat → Direct σ α} {x : Eval σ α}
    (h : Follows (some k) active d x) : Follows (some k') active d x := by
  intro s hs
  obtain ⟨hdepth, hd⟩ := h s hs
  exact ⟨hdepth, fun _ => hd fun hl => nomatch hl⟩

/-- In the frame of a procedure one more frame is active, and after it as many as before. -/
theorem inFrame {d : Nat → Direct σ α} {x : Eval σ α}
    (h : Follows limit (active + 1) d x) (name : String) (bindings : Table Node) :
    Follows limit active
      (fun fuel s => do
        let (r, s) ← d fuel { s with env := (s.env.pushFrame name bindings).pushScope }
        return (r, { s with env := s.env.popScope.popFrame }))
      (Eval.inFrame name bindings x) := by
  intro s hs
  obtain ⟨hdepth, hd⟩ := h { s with env := (s.env.pushFrame name bindings).pushScope }
    (congrArg (· + 1) hs)
  refine ⟨?_, fun hsettled => ?_⟩
  · change (x _).2.env.frames.tail.length = active
    rw [List.length_tail]
    exact Nat.sub_eq_of_eq_add hdepth
  · obtain ⟨enough, hends⟩ := hd hsettled
    refine ⟨enough, fun fuel hfuel => ?_⟩
    dsimp only
    rw [hends fuel hfuel]
    rfl

/-- A call of a procedure follows where its body does, one frame further in. -/
theorem invoke {run : Nat → List Node → Eval σ Node}
    (hbody : active < setup.settings.maxDepth → ∀ program,
      Follows limit (active + 1) (Direct.execute setup limit · program)
        (Eval.execute setup (setup.withRoom run (setup.settings.maxDepth - (active + 1)))
          program))
    (name : String) (p : Procedure) (args : List Node) :
    Follows limit active (Direct.invoke setup limit · name p args)
      ((setup.withRoom run (setup.settings.maxDepth - active)).invoke name p args) := by
  intro s hs
  unfold Reentry.invoke
  rw [Eval.withRoom_enter]
  by_cases hlength : p.params.length = args.length
  · rw [if_pos hlength]
    by_cases hroom : active < setup.settings.maxDepth
    · rw [if_pos hroom]
      refine (inFrame (hbody hroom p.body) name _ s hs).shift 1 0 fun fuel => ?_
      simp only [Direct.invoke]
      rw [if_neg (not_not_intro hlength), hs, if_neg (Nat.not_le_of_lt hroom)]
      rfl
    · rw [if_neg hroom]
      refine (fail _ s hs).shift 1 0 fun fuel => ?_
      simp only [Direct.invoke]
      rw [if_neg (not_not_intro hlength), hs, if_pos (Nat.le_of_not_lt hroom)]
  · rw [if_neg hlength]
    refine (fail _ s hs).shift 1 0 fun fuel => ?_
    simp only [Direct.invoke]
    rw [if_pos hlength]

end Follows

theorem withRoom_leave (setup : Setup σ) (run : Nat → List Node → Eval σ Node) (room : Nat) :
    (setup.withRoom run room).leave = fun status => Eval.halt (.exit status) := by
  cases room with
  | zero => rfl
  | succ room => rfl

/-- Calls of procedures end since each uses up one of the frames left. -/
theorem Reenters.withRoom {run : Nat → List Node → Eval σ Node}
    (hrun : ∀ active program, Follows limit active (runNested setup limit · program)
      (run (setup.settings.maxDepth - active) program)) (active : Nat) :
    Reenters setup limit active
      (setup.withRoom run (setup.settings.maxDepth - active)) := by
  have hprogram : ∀ active program, Follows limit active (runNested setup limit · program)
      ((setup.withRoom run (setup.settings.maxDepth - active)).run program) := by
    intro active program
    rw [Eval.withRoom_run]
    exact hrun active program
  -- On the frames left, which a call uses up and a nested program does not.
  induction hroom : setup.settings.maxDepth - active generalizing active with
  | zero =>
    rw [← hroom]
    exact ⟨Follows.invoke fun hlt => by omega, hprogram active, withRoom_leave setup run _⟩
  | succ room ih =>
    rw [← hroom]
    refine ⟨Follows.invoke fun hlt program => ?_, hprogram active, withRoom_leave setup run _⟩
    have hnext : setup.settings.maxDepth - (active + 1) = room := by omega
    rw [hnext]
    exact Follows.execute (ih (active + 1) hnext) program

/-- Nested programs end since each uses up some of the budget. -/
theorem runNested_follows (setup : Setup σ) (budget : Nat) {limit : Option Nat}
    (hlimit : limit = none ∨ limit = some budget) (active : Nat) (program : List Node) :
    Follows limit active (runNested setup limit · program)
      (setup.nested budget (setup.settings.maxDepth - active) program) := by
  induction budget generalizing limit active program with
  | zero =>
    refine .step ?_
    rcases hlimit with rfl | rfl
    · exact fun s hs => ⟨hs, fun hsettled => absurd rfl (hsettled rfl)⟩
    · exact Follows.lift (Eval.Keeping.ofEnv fun _ => rfl)
  | succ budget ih =>
    refine .step ?_
    rcases hlimit with rfl | rfl
    · exact Follows.execute (.withRoom (ih (.inl rfl)) active) program
    · exact .ofLimit (Follows.execute (.withRoom (ih (.inr rfl)) active) program)

theorem reentry_follows (setup : Setup σ) {limit : Option Nat}
    (hlimit : limit = none ∨ limit = some setup.budget) (active : Nat) :
    Reenters setup limit active (setup.reentry active) :=
  .withRoom (runNested_follows setup setup.budget hlimit) active

/-- In a state the recursion ends with an outcome: with the limit in any case, and without one
if the outcome does not come from the limit. -/
def Ends (d : Option Nat → Nat → Direct σ α) (limit : Nat) (s : State σ)
    (outcome : Except Halt α × State σ) : Prop :=
  EndsIn (d (some limit)) s outcome ∧
    (outcome.1 ≠ .error .exhausted → EndsIn (d none) s outcome)

/-- What follows wherever procedures and nested programs are followed ends in a session. -/
theorem Ends.ofFollows (setup : Setup σ) (s : State σ) {d : Option Nat → Nat → Direct σ α}
    {x : Reentry σ → Eval σ α}
    (h : ∀ limit active re, Reenters setup limit active re →
      Follows limit active (d limit) (x re)) :
    Ends d setup.budget s (x (setup.reentry s.env.frameDepth) s) := by
  have hfollows : ∀ limit, limit = none ∨ limit = some setup.budget →
      Follows limit s.env.frameDepth (d limit) (x (setup.reentry s.env.frameDepth)) :=
    fun limit hlimit => h limit _ _ (reentry_follows setup hlimit _)
  refine ⟨(hfollows (some setup.budget) (.inr rfl) s rfl).2 nofun, fun houtcome => ?_⟩
  exact (hfollows none (.inl rfl) s rfl).2 fun _ => houtcome

end Direct

/-! ## Self-application -/

/-- What a function does that calls its argument on itself. -/
def selfCall : List Node :=
  [.call [.identifier {} "x", .identifier {} "x"]]

def selfApplication : Node :=
  .function {} ["x"] selfCall

namespace Eval

theorem callNode_function (setup : Setup σ) (re : Reentry σ) (stamp : Stamp)
    (params : List String) (body args : List Node) :
    callNode setup re (.function stamp params body) args =
      re.invoke Callee.anonymous ⟨params, body⟩ args := by
  funext s
  rw [callNode, Callee.ofNode]
  dsimp only
  rw [call.eq_def]

theorem execute_selfCall (setup : Setup σ) (re : Reentry σ) {s : State σ}
    (h : s.env.lookup "x" = some selfApplication) :
    execute setup re selfCall s =
      re.invoke Callee.anonymous ⟨["x"], selfCall⟩ [selfApplication] s := by
  have hx : evalNode setup re (.identifier {} "x") s = (.ok selfApplication, s) := by
    change (Except.ok ((s.env.lookup "x").getD _), s) = _
    rw [h]
    rfl
  have hargs : evalArgs setup re [.identifier {} "x"] s = (.ok [selfApplication], s) :=
    bind_of_ok hx
  calc execute setup re selfCall s
      = evalNode setup re (.call [.identifier {} "x", .identifier {} "x"]) s := by
        rw [selfCall, execute_singleton]
    _ = callNode setup re selfApplication [selfApplication] s :=
        (bind_of_ok hx).trans (bind_of_ok hargs)
    _ = re.invoke Callee.anonymous ⟨["x"], selfCall⟩ [selfApplication] s :=
        congrFun (callNode_function setup re {} ["x"] selfCall [selfApplication]) s

/-- A function that calls itself on itself comes to the recursion limit. -/
theorem invoke_selfApplication (setup : Setup σ) (run : Nat → List Node → Eval σ Node)
    (room : Nat) (s : State σ) :
    (setup.withRoom run room).invoke Callee.anonymous ⟨["x"], selfCall⟩ [selfApplication] s =
      (.error (.fault (.recursionLimit setup.settings.maxDepth)), s) := by
  induction room generalizing s with
  | zero => rfl
  | succ room ih =>
    change inFrame _ _ (execute setup (setup.withRoom run room) selfCall) s = _
    unfold inFrame
    rw [execute_selfCall setup _ rfl, ih]
    rfl

end Eval

/-- **Evaluation ends.** The budget of a shell is any number: a run that nests `eval` and `load`
no deeper ends as plain recursion, and so does every run where the next nested one halts. -/
theorem Session.evaluation_terminates (setup : Setup σ) (s : State σ) :
    (∀ n, Direct.Ends (Direct.evalNode setup · · n) setup.budget s
      (Session.evalNode setup n s)) ∧
    (∀ program, Direct.Ends (Direct.execute setup · · program) setup.budget s
      (Session.execute setup program s)) ∧
    (∀ name args, Direct.Ends (Direct.callNamed setup · · name args) setup.budget s
      (Session.callNamed setup name args s)) ∧
    (∀ f args, Direct.Ends (Direct.callNode setup · · f args) setup.budget s
      (Session.callNode setup f args s)) ∧
    (∀ path, Direct.Ends (Direct.loadFile setup · · path) setup.budget s
      (Session.loadFile setup path s)) := by
  refine ⟨fun n => ?_, fun program => ?_, fun name args => ?_, fun f args => ?_, fun path => ?_⟩
  · exact .ofFollows setup s (x := (Eval.evalNode setup · n)) fun _ _ _ hre => .evalNode hre n
  · exact .ofFollows setup s (x := (Eval.execute setup · program)) fun _ _ _ hre =>
      .execute hre program
  · exact .ofFollows setup s (x := (Eval.callNamed setup · name args)) fun _ _ _ hre =>
      .callNamed hre name args
  · exact .ofFollows setup s (x := (Eval.callNode setup · f args)) fun _ _ _ hre =>
      .callNode hre f args
  · exact .ofFollows setup s (x := (Eval.loadFile setup · path)) fun _ _ _ hre =>
      .loadFile hre path

/-- A function applied to itself, on a machine and with the default settings. -/
theorem Session.evaluation_terminates_selfApplication :
    let setup : Setup Machine := { host := Machine.host }
    let s := Session.start Machine.fresh
    Direct.EndsIn (Direct.evalNode setup none · (.call [selfApplication, selfApplication])) s
      (.error (.fault (.recursionLimit 256)), s) := by
  intro setup s
  have hrun : Session.evalNode setup (.call [selfApplication, selfApplication]) s =
      (.error (.fault (.recursionLimit 256)), s) :=
    Eval.invoke_selfApplication setup (setup.nested setup.budget) 256 s
  have hends := (Session.evaluation_terminates setup s).1 (.call [selfApplication, selfApplication])
  rw [hrun] at hends
  exact hends.2 nofun

end ExprShell
