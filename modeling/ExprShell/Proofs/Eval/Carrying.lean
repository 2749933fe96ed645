/-
Hosts that carry something along. A carrying host answers as the host does, and each pipeline that
it is asked for may leave a note in what it carries. All that evaluation does to a state apart from
pipelines is, on a carrying host, the same computation with the load left alone, and ends in a value
or a fault (`Eval.Carries`); tools as well, whose arity is checked before they run
(`Carries.tool`). What is to be written down of an evaluation can then be written into the load.
-/
import ExprShell.Proofs.Eval.Isolation

namespace ExprShell

variable {σ α β ω : Type}

/-- A state with a load. -/
def State.carrying (s : State σ) (load : ω) : State (σ × ω) :=
  ⟨s.env, (s.host, load)⟩

/-- The host with a load, in which pipelines are noted. -/
def Host.carrying (host : Host σ) (note : Request → ω → ω) : Host (σ × ω) where
  resolve a := host.resolve a.1
  pipeline commands input mode a :=
    let (done, next) := host.pipeline commands input mode a.1
    (done, next, note ⟨commands, input, mode⟩ a.2)
  locate a := host.locate a.1
  readFile a := host.readFile a.1
  print text a := (host.print text a.1).map (·, a.2)
  tell text a := (host.tell text a.1, a.2)
  warn text a := (host.warn text a.1, a.2)
  workingDirectory a := host.workingDirectory a.1
  changeDirectory path a := (host.changeDirectory path a.1).map (·, a.2)
  valueOf? a := host.valueOf? a.1
  setVariable name value a := (host.setVariable name value a.1, a.2)

/-- The shell on a carrying host. -/
def Setup.carrying (setup : Setup σ) (note : Request → ω → ω) : Setup (σ × ω) where
  host := setup.host.carrying note
  settings := setup.settings
  tools := setup.tools
  budget := setup.budget

namespace Eval

/-- The first computation is the second one with a load that it leaves alone. It ends in a value or
a fault. -/
structure Carries (x : Eval (σ × ω) α) (x' : Eval σ α) : Prop where
  same (s : State σ) (load : ω) : x (s.carrying load) = ((x' s).1, (x' s).2.carrying load)
  faults (s : State σ) (h : Halt) : (x' s).1 = .error h → ∃ f, h = .fault f

namespace Carries

variable {x : Eval (σ × ω) α} {x' : Eval σ α} {note : Request → ω → ω}

/-- A computation that gives a value. -/
theorem ofOk (h : ∀ s load, x (s.carrying load) = ((x' s).1, (x' s).2.carrying load))
    (hok : ∀ s, ∃ a, (x' s).1 = .ok a) : Carries x x' := by
  refine ⟨h, fun s e he => ?_⟩
  obtain ⟨a, ha⟩ := hok s
  cases ha.symm.trans he

theorem pure (a : α) : Carries (pure a : Eval (σ × ω) α) (pure a) :=
  ofOk (fun _ _ => rfl) fun _ => ⟨a, rfl⟩

theorem fail (f : Fault) : Carries (fail f : Eval (σ × ω) α) (fail f) := by
  refine ⟨fun _ _ => rfl, fun s e he => ?_⟩
  cases he
  exact ⟨f, rfl⟩

theorem ofExcept (r : Except Fault α) :
    Carries (ofExcept r : Eval (σ × ω) α) (ofExcept r) := by
  cases r with
  | ok a => exact pure a
  | error f => exact fail f

theorem bind {f : α → Eval (σ × ω) β} {f' : α → Eval σ β} (hx : Carries x x')
    (hf : ∀ a, Carries (f a) (f' a)) : Carries (x >>= f) (x' >>= f') := by
  constructor
  · intro s load
    have hsame := hx.same s load
    cases h : x' s with
    | mk r t =>
      rw [h] at hsame
      cases r with
      | ok a =>
        rw [bind_of_ok hsame, bind_of_ok h]
        exact (hf a).same t load
      | error e => rw [bind_of_error hsame, bind_of_error h]
  · intro s e he
    cases h : x' s with
    | mk r t =>
      cases r with
      | ok a =>
        rw [bind_of_ok h] at he
        exact (hf a).faults t e he
      | error e' =>
        rw [bind_of_error h] at he
        cases he
        exact hx.faults s e (congrArg Prod.fst h)

theorem env : Carries (env : Eval (σ × ω) Environment) env :=
  ofOk (fun _ _ => rfl) fun s => ⟨s.env, rfl⟩

theorem modifyEnv (f : Environment → Environment) :
    Carries (modifyEnv f : Eval (σ × ω) Unit) (modifyEnv f) :=
  ofOk (fun _ _ => rfl) fun _ => ⟨(), rfl⟩

theorem askHost (f : σ → α) : Carries (askHost fun a : σ × ω => f a.1) (askHost f) :=
  ofOk (fun _ _ => rfl) fun s => ⟨f s.host, rfl⟩

theorem modifyHost (f : σ → σ) :
    Carries (modifyHost fun a : σ × ω => (f a.1, a.2)) (modifyHost f) :=
  ofOk (fun _ _ => rfl) fun _ => ⟨(), rfl⟩

theorem ask {f : State (σ × ω) → Except Fault α} {f' : State σ → Except Fault α}
    (h : ∀ s load, f (s.carrying load) = f' s) : Carries (ask f) (ask f') := by
  refine ⟨fun s load => ?_, fun s e he => (ofExcept (ω := ω) (f' s)).faults s e he⟩
  unfold Eval.ask
  rw [h s load]
  exact (ofExcept (f' s)).same s load

theorem checkConstant (name : String) :
    Carries (checkConstant name : Eval (σ × ω) Unit) (checkConstant name) := by
  rw [checkConstant_eq, checkConstant_eq]
  exact ask fun _ _ => rfl

theorem setConstant (name : String) (value : Node) :
    Carries (setConstant name value : Eval (σ × ω) Node) (setConstant name value) := by
  refine bind env fun e => bind (ofExcept (e.defineConstant name value)) fun next => ?_
  exact bind (modifyEnv fun _ => next) fun _ => pure value

theorem setVariable (name : String) (value : Node) :
    Carries (setVariable name value : Eval (σ × ω) Node) (setVariable name value) := by
  unfold Eval.setVariable
  split
  · exact bind (modifyEnv _) fun _ => pure _
  · exact bind (modifyEnv _) fun _ => pure _

theorem programPath (setup : Setup σ) (note : Request → ω → ω) (name : String) :
    Carries (programPath (setup.carrying note) name) (programPath setup name) := by
  have hprogram (s : State σ) (load : ω) :
      (setup.carrying note).program? (s.carrying load).host name = setup.program? s.host name :=
    rfl
  constructor
  · intro s load
    unfold Eval.programPath
    rw [hprogram]
    cases setup.program? s.host name with
    | some path => rfl
    | none => rfl
  · intro s e he
    unfold Eval.programPath at he
    cases hfound : setup.program? s.host name with
    | some path =>
      rw [hfound] at he
      cases he
    | none =>
      rw [hfound] at he
      cases he
      exact ⟨_, rfl⟩

/-! ### Tools -/

theorem changeHost (change : σ → Except String σ) (fault : String → Fault) :
    Carries (Tool.changeHost (fun a : σ × ω => (change a.1).map (·, a.2)) fault)
      (Tool.changeHost change fault) := by
  constructor
  · intro s load
    cases hs : change s.host with
    | ok next =>
      have hload : (change (s.carrying load).host.1).map (·, load) = .ok (next, load) := by
        change (change s.host).map (·, load) = _
        rw [hs]
        rfl
      rw [changeHost_of_ok hload, changeHost_of_ok hs]
      rfl
    | error reason =>
      have hload : (change (s.carrying load).host.1).map (·, load) = .error reason := by
        change (change s.host).map (·, load) = _
        rw [hs]
        rfl
      rw [changeHost_of_error hload, changeHost_of_error hs]
  · intro s e he
    cases hs : change s.host with
    | ok next =>
      rw [changeHost_of_ok hs] at he
      cases he
    | error reason =>
      rw [changeHost_of_error hs] at he
      cases he
      exact ⟨_, rfl⟩

theorem changeDirectory (host : Host σ) (args : List Node) :
    Carries (Tool.changeDirectory (host.carrying note) args) (Tool.changeDirectory host args) := by
  unfold Tool.changeDirectory
  split
  · refine bind (askHost (host.valueOf? · "HOME")) fun home => ?_
    cases home with
    | some path => exact changeHost (host.changeDirectory path) _
    | none => exact fail _
  · exact changeHost (host.changeDirectory _) _
  · exact fail _

theorem writeVariable (host : Host σ) (name value : String) :
    Carries (Tool.writeVariable (host.carrying note) name value)
      (Tool.writeVariable host name value) := by
  unfold Tool.writeVariable
  split
  · exact fail _
  · split
    · exact fail _
    · exact bind (modifyHost (host.setVariable _ _)) fun _ => pure _

/-- A tool that has a value on its arguments does not use the host. -/
theorem run_eq_ofExcept (host : Host σ) (path : List String) {t : Tool} {args : List Node}
    {value : Except Fault Node} (h : t.pureValue? args = some value) :
    t.run host path args = Eval.ofExcept value := by
  unfold Tool.run
  split
  case h_10 => rw [h]
  all_goals cases h

theorem ofPure (host : Host σ) (path : List String) {t : Tool} {args : List Node}
    {value : Except Fault Node} (h : t.pureValue? args = some value) :
    Carries (t.run (host.carrying note) path args) (t.run host path args) := by
  rw [run_eq_ofExcept _ path h, run_eq_ofExcept _ path h]
  exact ofExcept value

/-- A tool with as many arguments as its arity says finds all that it uses. -/
theorem run (host : Host σ) (path : List String) (t : Tool) (args : List Node)
    (harity : ∀ n, t.arity? = some n → args.length = n) :
    Carries (t.run (host.carrying note) path args) (t.run host path args) := by
  have none (h : t.arity? = some 0) : args = [] := List.length_eq_zero_iff.1 (harity 0 h)
  have one (h : t.arity? = some 1) : ∃ a, args = [a] := List.length_eq_one_iff.1 (harity 1 h)
  have two (h : t.arity? = some 2) : ∃ a b, args = [a, b] := by
    have hlength := harity 2 h
    obtain ⟨a, rest, rfl⟩ := List.exists_cons_of_length_eq_add_one hlength
    obtain ⟨b, rfl⟩ := List.length_eq_one_iff.1 (Nat.succ.inj hlength)
    exact ⟨a, b, rfl⟩
  cases t with
  | arithmetic | list | append | concat => exact ofPure host path rfl
  | not | head | tail | length | reverse | str | upper | lower | trim | toJson | fromJson =>
    obtain ⟨a, rfl⟩ := one rfl
    exact ofPure host path rfl
  | comparison | equal | notEqual | cons | nth | split | join =>
    obtain ⟨a, b, rfl⟩ := two rfl
    exact ofPure host path rfl
  | print => exact changeHost (host.print _) _
  | println => exact changeHost (host.print _) _
  | cd => exact changeDirectory host args
  | pwd =>
    obtain rfl := none rfl
    refine bind (askHost host.workingDirectory) fun found => ?_
    cases found with
    | ok path => exact pure _
    | error reason => exact fail _
  | getenv =>
    obtain ⟨name, rfl⟩ := one rfl
    refine bind (askHost (host.valueOf? · name.plain)) fun found => ?_
    cases found with
    | some value => exact pure _
    | none => exact pure _
  | setenv =>
    obtain ⟨name, value, rfl⟩ := two rfl
    exact writeVariable host name.plain value.plain
  | which =>
    obtain ⟨name, rfl⟩ := one rfl
    refine bind (askHost (host.locate · path name.plain)) fun found => ?_
    cases found with
    | some value => exact pure _
    | none => exact pure _
  | unset =>
    obtain ⟨name, rfl⟩ := one rfl
    exact bind env fun e => bind (modifyEnv (·.unbind name.plain)) fun _ => pure _
  | vars =>
    obtain rfl := none rfl
    exact bind env fun e => pure _

/-- The arity of a tool is checked before it runs. -/
theorem tool (host : Host σ) (note : Request → ω → ω) (path : List String) (t : Tool)
    (args : List Node) :
    Carries (t.call (host.carrying note) path args) (t.call host path args) := by
  unfold Tool.call
  cases harity : t.arity? with
  | none => exact run host path t args fun n hn => by simp [harity] at hn
  | some n =>
    dsimp only
    split
    · next hlength =>
      refine run host path t args fun m hm => ?_
      rw [harity] at hm
      cases hm
      exact hlength
    · exact fail _

end Carries

/-- A pipeline on a carrying host is one on the host, and leaves its note. -/
theorem pipeline_carrying (setup : Setup σ) (note : Request → ω → ω) (commands : List Command)
    (input : Option String) (mode : OutputMode) (s : State σ) (load : ω) :
    (setup.carrying note).pipeline commands input mode (s.carrying load) =
      ((setup.pipeline commands input mode s).1,
        (setup.pipeline commands input mode s).2.carrying (note ⟨commands, input, mode⟩ load)) := by
  cases h : setup.host.pipeline commands input mode s.host with
  | mk done next =>
    have hcarrying : (setup.carrying note).host.pipeline commands input mode
        (s.carrying load).host = (done, next, note ⟨commands, input, mode⟩ load) := by
      change ((setup.host.pipeline commands input mode s.host).1,
        (setup.host.pipeline commands input mode s.host).2,
        note ⟨commands, input, mode⟩ load) = _
      rw [h]
    unfold Setup.pipeline
    rw [h, hcarrying]
    cases done with
    | ok done => rfl
    | error f => rfl

theorem pipeline_faults (setup : Setup σ) (commands : List Command) (input : Option String)
    (mode : OutputMode) (s : State σ) {e : Halt}
    (h : (setup.pipeline commands input mode s).1 = .error e) : ∃ f, e = .fault f := by
  unfold Setup.pipeline at h
  split at h
  · cases h
  · cases h
    exact ⟨_, rfl⟩

end Eval

end ExprShell
