/-
What holds between top-level evaluations. Whatever a session was given before, and however that
ended, it has no variables, frames or inner scopes left, its constants are those it had and maybe
more, and a text that cannot be read leaves it as it was (`Session.perform_invariant`).

That constants stay is shown for all evaluation (`Environment.Extends`): the one place that sets a
constant looks again whether it is there, after its value was computed, so that a value which
defines the same constant on the way changes nothing.
-/
import ExprShell.Machine.Host
import ExprShell.Proofs.Eval.Isolation

namespace ExprShell

variable {σ : Type}

/-! ## Constants -/

namespace Environment

/-- Every constant before is there afterwards with its value. -/
def Extends (before after : Environment) : Prop :=
  ∀ name value, before.constants.get? name = some value → after.constants.get? name = some value

namespace Extends

theorem ofConstants {before after : Environment} (h : after.constants = before.constants) :
    Extends before after := by
  intro name value hvalue
  rw [h]
  exact hvalue

theorem drift : Drift Extends where
  refl _ := ofConstants rfl
  trans hab hbc := fun name value h => hbc name value (hab name value h)
  setCurrent e t := by
    refine ofConstants ?_
    unfold Environment.setCurrent
    split
    · rfl
    · rfl
  defineProcedure e name p := by
    refine ofConstants ?_
    unfold Environment.defineProcedure
    split
    · rfl
    · rfl

/-- A name that is no constant yet can become one. -/
theorem insert {e : Environment} {name : String} (value : Node) (h : ¬ e.isConstant name = true) :
    Extends e { e with constants := e.constants.insert name value } := by
  intro other found hfound
  have hne : other ≠ name := by
    rintro rfl
    exact h (by simp [isConstant, Table.contains, hfound])
  change (e.constants.insert name value).get? other = some found
  rw [Table.get?_insert, if_neg hne]
  exact hfound

end Extends

end Environment

namespace Eval

open Environment (Extends)

theorem setConstant_extends (name : String) (value : Node) :
    Along Extends (setConstant name value : Eval σ Node) := by
  intro s
  change s.env.Extends ((ofExcept (s.env.defineConstant name value) >>= fun next =>
    modifyEnv (fun _ => next) >>= fun _ => pure value : Eval σ Node) s).2.env
  unfold Environment.defineConstant
  split
  · exact Extends.drift.refl s.env
  · next h => exact Extends.insert value h

/-- The check before the value is computed is not needed here: the one after it decides. -/
theorem constant_extends {x : Eval σ Node} (name : String) (hx : Along Extends x) :
    Along Extends (checkConstant name >>= fun _ => x >>= fun value => setConstant name value) := by
  have hcheck : Along Extends (checkConstant name : Eval σ Unit) := by
    rw [checkConstant_eq]
    exact Along.ask Extends.drift _
  refine Along.bind Extends.drift hcheck fun _ => ?_
  exact Along.bind Extends.drift hx fun value => setConstant_extends name value

def extending (setup : Setup σ) : Congruence setup setup :=
  Along.congruence Extends.drift setup constant_extends

/-- Entering and leaving a procedure do not touch the constants. -/
theorem extending_frames (setup : Setup σ) :
    Congruence.Frames fun _ : Unit => extending setup where
  inFrame _ name bindings _ _ hx := fun s =>
    hx () { s with env := (s.env.pushFrame name bindings).pushScope }
  exit _ _ := Along.ofEnv Extends.drift fun _ => rfl

end Eval

namespace Session

theorem execute_extends (setup : Setup σ) (program : List Node) :
    Eval.Along Environment.Extends (execute setup program) := by
  intro s
  have hre := Eval.Congruence.reentry (Eval.extending_frames setup) rfl rfl s.env.frameDepth ()
  exact (Eval.extending setup).execute hre program s

/-! ## Top-level evaluations -/

/-- What a session is given. -/
inductive Submission where
  | source (text : String)
  | program (nodes : List Node)

/-- One top-level evaluation. -/
def perform (setup : Setup σ) : Submission → Eval σ Node
  | .source text => evaluate setup text
  | .program nodes => submit setup nodes

/-- The state after several top-level evaluations. -/
def after (setup : Setup σ) (s : State σ) (given : List Submission) : State σ :=
  given.foldl (fun s next => (perform setup next s).2) s

/-- No variables, no active procedures, and of the procedure scopes the global one only. -/
structure AtRest (e : Environment) : Prop where
  dynamic : e.dynamic = []
  frames : e.frames = []
  scopes : e.procedureScopes.length = 1

theorem atRest_reset (s : State σ) : AtRest (reset s).env :=
  ⟨rfl, rfl, rfl⟩

/-- At rest there is nothing to drop. -/
theorem reset_of_atRest {s : State σ} (h : AtRest s.env) : reset s = s := by
  obtain ⟨⟨constants, dynamic, frames, globals, scopes⟩, host⟩ := s
  obtain ⟨rfl, rfl, hscopes⟩ := h
  have hnil : scopes = [] := by
    simpa [Environment.procedureScopes] using hscopes
  subst hnil
  rfl

variable (setup : Setup σ) (s : State σ)

/-- A text is run as the program it spells. -/
theorem evaluate_of_read {text : String} {program : List Node}
    (h : setup.read text = .ok program) : evaluate setup text s = submit setup program s := by
  unfold evaluate executeSource submit
  rw [h]
  rfl

theorem evaluate_of_unreadable {text : String} {f : Fault} (h : setup.read text = .error f) :
    evaluate setup text s = (.error (.fault f), reset s) := by
  unfold evaluate executeSource
  rw [h]
  rfl

theorem submit_extends (program : List Node) :
    s.env.Extends (submit setup program s).2.env :=
  execute_extends setup program s

/-- One step: the state is at rest afterwards, and the constants were only added to. -/
theorem perform_step (next : Submission) :
    AtRest (perform setup next s).2.env ∧ s.env.Extends (perform setup next s).2.env := by
  cases next with
  | program nodes => exact ⟨atRest_reset _, submit_extends setup s nodes⟩
  | source text =>
    refine ⟨atRest_reset _, ?_⟩
    cases hread : setup.read text with
    | ok program =>
      rw [perform, evaluate_of_read setup s hread]
      exact submit_extends setup s program
    | error f =>
      rw [perform, evaluate_of_unreadable setup s hread]
      exact Environment.Extends.ofConstants rfl

/-- A run from rest stays at rest. -/
theorem atRest_after {s : State σ} (h : AtRest s.env) (given : List Submission) :
    AtRest (after setup s given).env := by
  induction given generalizing s with
  | nil => exact h
  | cons next rest ih => exact ih (perform_step setup s next).1

/-- **Between top-level evaluations** a session is at rest; each of them keeps the constants that
were there, and one of a text that cannot be read keeps everything, and asks for no pipeline. -/
theorem perform_invariant (host : σ) (earlier : List Submission) (next : Submission) :
    let s := after setup (start host) earlier
    AtRest (perform setup next s).2.env ∧ s.env.Extends (perform setup next s).2.env ∧
      ∀ text f, next = .source text → setup.read text = .error f →
        perform setup next s = (.error (.fault f), s) ∧
          ∀ asked : List Request,
            (perform setup.recording next ⟨s.env, (s.host, asked)⟩).2.host.2 = asked := by
  intro s
  have hrest : AtRest s.env := atRest_after setup ⟨rfl, rfl, rfl⟩ earlier
  obtain ⟨hnext, hconstants⟩ := perform_step setup s next
  refine ⟨hnext, hconstants, ?_⟩
  rintro text f rfl hread
  constructor
  · rw [perform, evaluate_of_unreadable setup s hread, reset_of_atRest hrest]
  · intro asked
    have hrecording : setup.recording.read text = .error f := hread
    rw [perform, evaluate_of_unreadable setup.recording _ hrecording]
    rfl

/-- A constant is defined, then its value is to be set again, and then a text has a string without
an end: the constant stays, and the last text changes nothing. -/
theorem perform_invariant_unterminated :
    let setup : Setup Machine := { host := Machine.host }
    let define (n : Int64) : Submission := .program [.call [.operator {} "let",
      .identifier {} "global", .identifier {} "x", .ofInt64 n]]
    let s := after setup (start Machine.fresh) [define 1, define 2]
    s.env.constants.get? "x" = some (.ofInt64 1) ∧
      setup.read "let global x = \"3" = .error (.lexical 1 .unterminatedString) ∧
      perform setup (.source "let global x = \"3") s =
        (.error (.fault (.lexical 1 .unterminatedString)), s) := by
  intro setup define s
  have hread : setup.read "let global x = \"3" = .error (.lexical 1 .unterminatedString) := by
    rfl
  have h := perform_invariant setup Machine.fresh [define 1, define 2]
    (.source "let global x = \"3")
  exact ⟨rfl, hread, (h.2.2 _ _ rfl hread).1⟩

end Session

end ExprShell
