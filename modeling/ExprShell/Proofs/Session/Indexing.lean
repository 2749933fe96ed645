/-
Evaluation finds all that it uses (`Session.indexing_safe`). Tools get stuck on arguments that are
not there (`Tool.run_of_few`), but their arity is checked before they run, and nothing else in an
evaluation gets stuck (`unstuckCongruence`). The other reads by index are those of `Unchecked`, which
agree with evaluation.
-/
import ExprShell.Proofs.Eval.Carrying
import ExprShell.Proofs.Eval.Unchecked
import ExprShell.Proofs.Session.Exit

namespace ExprShell

variable {σ α β : Type}

/-! ## No evaluation gets stuck -/

namespace Eval

/-- The computation finds all that it uses. -/
def Unstuck (x : Eval σ α) : Prop :=
  ∀ s, (x s).1 ≠ .error .stuck

namespace Unstuck

theorem ofFaults {x : Eval σ α} (h : ∀ s e, (x s).1 = .error e → ∃ f, e = .fault f) :
    Unstuck x := by
  intro s hstuck
  obtain ⟨f, hf⟩ := h s _ hstuck
  cases hf

theorem ofCarries {x : Eval (σ × Unit) α} {x' : Eval σ α} (h : Carries x x') : Unstuck x' :=
  ofFaults h.faults

theorem ask (f : State σ → Except Fault α) : Unstuck (ask f) :=
  ofCarries (Carries.ask (f := fun s => f ⟨s.env, s.host.1⟩) fun _ _ => rfl)

theorem bind {x : Eval σ α} {f : α → Eval σ β} (hx : Unstuck x) (hf : ∀ a, Unstuck (f a)) :
    Unstuck (x >>= f) := by
  intro s
  have hs := hx s
  cases h : x s with
  | mk r t =>
    rw [h] at hs
    cases r with
    | ok a =>
      rw [bind_of_ok h]
      exact hf a t
    | error e =>
      rw [bind_of_error h]
      intro heq
      cases heq
      exact hs rfl

theorem rescue {x : Eval σ α} {mend : Fault → Eval σ α} (hx : Unstuck x)
    (hmend : ∀ f, Unstuck (mend f)) : Unstuck (rescue x mend) := by
  intro s
  have hs := hx s
  cases h : x s with
  | mk r t =>
    rw [h] at hs
    unfold Eval.rescue
    rw [bind_of_ok (attempt_of_eq h)]
    rcases r with (f | status | _ | _) | a
    · exact hmend f t
    · exact hs
    · exact hs
    · exact hs
    · exact hs

theorem inFrame {x : Eval σ α} (name : String) (bindings : Table Node) (hx : Unstuck x) :
    Unstuck (inFrame name bindings x) := by
  intro s
  cases h : x { s with env := (s.env.pushFrame name bindings).pushScope } with
  | mk r t =>
    have hs := hx { s with env := (s.env.pushFrame name bindings).pushScope }
    rw [h] at hs
    rw [Watched.inFrame_of_eq h]
    exact hs

end Unstuck

/-- Not getting stuck, as a property of all evaluation. -/
def unstuckCongruence (setup : Setup σ) : Congruence setup setup where
  rel x _ := Unstuck x
  pure a := .ofCarries (.pure a)
  bind := Unstuck.bind
  fail f := .ofCarries (.fail f)
  exhausted := fun _ h => by cases h
  rescue := Unstuck.rescue
  read := read_self setup
  lookup _ := .ask _
  defined _ := .ask _
  constant name hx := Unstuck.bind (.ofCarries (.checkConstant name)) fun _ =>
    Unstuck.bind hx fun value => .ofCarries (.setConstant name value)
  setVariable name value := .ofCarries (.setVariable name value)
  bindAll captures := .ofCarries (.modifyEnv _)
  calleeOfName _ _ := .ask _
  calleeOfNode _ _ := .ask _
  programPath name := .ofCarries (.programPath setup (fun _ load => load) name)
  readFile path := .ofCarries (.askHost (setup.host.readFile · path))
  tool t args := .ofCarries
    (.tool setup.host (fun _ load => load) setup.settings.searchPath t args)
  pipeline commands input mode := .ofFaults fun s _ h =>
    pipeline_faults setup commands input mode s h

theorem unstuckCongruence_frames (setup : Setup σ) :
    Congruence.Frames fun _ : Unit => unstuckCongruence setup where
  inFrame _ name bindings _ _ hx := Unstuck.inFrame name bindings (hx ())
  exit _ _ := fun _ h => by cases h

theorem reentry_unstuck (setup : Setup σ) (active : Nat) :
    (unstuckCongruence setup).Reenters (setup.reentry active) (setup.reentry active) :=
  Congruence.reentry (unstuckCongruence_frames setup) rfl rfl active ()

end Eval

/-! ## Tools -/

/-- A tool that is given fewer arguments than its arity says gets stuck. -/
theorem Tool.run_of_few (host : Host σ) (path : List String) {t : Tool} {args : List Node}
    (h : args.length < t.arity?.getD 0) : t.run host path args = Eval.stuck := by
  have hone : args.length < 1 → args = [] := fun h => List.length_eq_zero_iff.1 (by omega)
  have htwo : args.length < 2 → args = [] ∨ ∃ a, args = [a] := by
    intro h
    cases args with
    | nil => exact .inl rfl
    | cons a rest =>
      rw [List.length_cons] at h
      exact .inr ⟨a, by rw [List.length_eq_zero_iff.1 (by omega : rest.length = 0)]⟩
  cases t with
  | arithmetic | list | append | concat | print | println | cd | pwd | vars =>
    exact absurd h (Nat.not_lt_zero _)
  | not | head | tail | length | reverse | str | upper | lower | trim | toJson | fromJson
  | getenv | which | unset =>
    obtain rfl := hone h
    rfl
  | comparison | equal | notEqual | cons | nth | split | join | setenv =>
    obtain rfl | ⟨a, rfl⟩ := htwo h
    · rfl
    · rfl

/-- What evaluation with some reentry reads by index is there: computations that read by index
without a check agree with those of evaluation, which do not get stuck. -/
structure Indexed (setup : Setup σ) (re : Reentry σ) : Prop where
  tool (t : Tool) (args : List Node) :
    (t.call setup.host setup.settings.searchPath args).Unstuck
  arithmetic (op : Operation) (args : List Node) :
    (Unchecked.arithmetic op args : Eval σ Node) = Eval.ofExcept (op.apply args)
  pattern (scrutinee n : Node) :
    Unchecked.evalPattern setup re scrutinee n = Eval.evalPattern setup re scrutinee n ∧
      (Eval.evalPattern setup re scrutinee n).Unstuck
  commands (n : Node) :
    Unchecked.evalCommands setup re n = Eval.evalCommands setup re n ∧
      (Eval.evalCommands setup re n).Unstuck
  stage (items : List Node) :
    Unchecked.evalStage setup re items = Eval.evalStage setup re [] items ∧
      (Eval.evalStage setup re [] items).Unstuck
  overrides (nodes : List Node) :
    (Unchecked.overrides nodes : Eval σ (List (String × String))) =
      Eval.ofExcept (Command.overrides nodes)

theorem Eval.indexed (setup : Setup σ) (active : Nat) : Indexed setup (setup.reentry active) where
  tool := (unstuckCongruence setup).tool
  arithmetic := Unchecked.arithmetic_eq
  pattern scrutinee n := ⟨Unchecked.evalPattern_eq scrutinee n,
    (unstuckCongruence setup).evalPattern (reentry_unstuck setup active) scrutinee n⟩
  commands n := ⟨Unchecked.evalCommands_eq n,
    (unstuckCongruence setup).evalCommands (reentry_unstuck setup active) n⟩
  stage items := ⟨Unchecked.evalStage_eq items,
    (unstuckCongruence setup).evalStage (reentry_unstuck setup active) [] items⟩
  overrides := Unchecked.overrides_eq

/-- **No read by index fails.** Whatever a session is asked for, in whatever state, with whatever
nodes, the evaluation does not get stuck, as it would where a tool uses an argument that is not
there; and the parts of evaluation that take lists apart could read them by index. -/
theorem Session.indexing_safe (setup : Setup σ) :
    (∀ (task : Task) (s : State σ), (task.perform setup s).1 ≠ .error .stuck) ∧
    (∀ active, Indexed setup (setup.reentry active)) ∧
    (∀ (t : Tool) (args : List Node), args.length < t.arity?.getD 0 →
      t.run setup.host setup.settings.searchPath args = Eval.stuck) := by
  refine ⟨fun task s => ?_, Eval.indexed setup, fun t args h => Tool.run_of_few _ _ h⟩
  rw [Task.perform_eq]
  exact Task.eval_related (Eval.unstuckCongruence setup)
    (Eval.reentry_unstuck setup s.env.frameDepth) task s

end ExprShell
