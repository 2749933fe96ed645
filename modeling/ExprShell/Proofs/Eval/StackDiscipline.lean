/-
However an evaluation ends, it leaves the stacks as it found them: as many frames and procedure
scopes, and in them nothing changed but the innermost frame and the innermost scope. Inside a
procedure the dynamic variables and the constants stay as well (`Session.request_keeps`).

Two parts of evaluation could break this. A call of a procedure pushes a frame and a scope, and
pops both after any outcome: the environment is then the one it started from, to the letter
(`Keeps.popScope_popFrame`). And `let global` writes to the constants, but has checked before
that no procedure is active, and computing its value did not start one (`Keeping.constant`).
-/
import ExprShell.Proofs.Eval.Scopes

namespace ExprShell

variable {σ : Type}

namespace Environment

/-- All procedure scopes, the innermost first and the global one last. -/
def procedureScopes (e : Environment) : List (Table Procedure) :=
  e.scopes ++ [e.globals]

/-- What an evaluation leaves alone. -/
structure Keeps (before after : Environment) : Prop where
  frameDepth : after.frameDepth = before.frameDepth
  callers : after.frames.tail = before.frames.tail
  scopeDepth : after.procedureScopes.length = before.procedureScopes.length
  outerScopes : after.procedureScopes.tail = before.procedureScopes.tail
  shared : 0 < before.frameDepth →
    after.dynamic = before.dynamic ∧ after.constants = before.constants

namespace Keeps

theorem refl (e : Environment) : Keeps e e :=
  ⟨rfl, rfl, rfl, rfl, fun _ => ⟨rfl, rfl⟩⟩

theorem trans {a b c : Environment} (hab : Keeps a b) (hbc : Keeps b c) : Keeps a c where
  frameDepth := hbc.frameDepth.trans hab.frameDepth
  callers := hbc.callers.trans hab.callers
  scopeDepth := hbc.scopeDepth.trans hab.scopeDepth
  outerScopes := hbc.outerScopes.trans hab.outerScopes
  shared h := by
    have hb := hbc.shared (hab.frameDepth ▸ h)
    have ha := hab.shared h
    exact ⟨hb.1.trans ha.1, hb.2.trans ha.2⟩

theorem setCurrent (e : Environment) (t : Table Node) : Keeps e (e.setCurrent t) := by
  cases h : e.frames with
  | nil =>
    have he : e.setCurrent t = { e with dynamic := t } := by simp [Environment.setCurrent, h]
    rw [he]
    exact ⟨rfl, rfl, rfl, rfl, fun hd => by simp [Environment.frameDepth, h] at hd⟩
  | cons frame rest =>
    have he : e.setCurrent t = { e with frames := { frame with bindings := t } :: rest } := by
      simp [Environment.setCurrent, h]
    rw [he]
    exact ⟨by simp [Environment.frameDepth, h], by simp [h], rfl, rfl, fun _ => ⟨rfl, rfl⟩⟩

theorem defineProcedure (e : Environment) (name : String) (p : Procedure) :
    Keeps e (e.defineProcedure name p) := by
  cases h : e.scopes with
  | nil =>
    have he : e.defineProcedure name p = { e with globals := e.globals.insert name p } := by
      simp [Environment.defineProcedure, h]
    rw [he]
    exact ⟨rfl, rfl, by simp [procedureScopes], by simp [procedureScopes, h], fun _ => ⟨rfl, rfl⟩⟩
  | cons scope rest =>
    have he : e.defineProcedure name p = { e with scopes := scope.insert name p :: rest } := by
      simp [Environment.defineProcedure, h]
    rw [he]
    refine ⟨rfl, rfl, ?_, ?_, fun _ => ⟨rfl, rfl⟩⟩
    · simp [procedureScopes, h]
    · simp [procedureScopes, h]

/-- Where no procedure is active the constants may change. -/
theorem ofConstants {e : Environment} (h : e.frameDepth = 0) (t : Table Node) :
    Keeps e { e with constants := t } :=
  ⟨rfl, rfl, rfl, rfl, fun hd => by omega⟩

/-- A call that kept its own frame and scope leaves, once these are popped, exactly the
environment it started from. -/
theorem popScope_popFrame {e after : Environment} {name : String} {bindings : Table Node}
    (h : Keeps (e.pushFrame name bindings).pushScope after) :
    after.popScope.popFrame = e := by
  have hframes : after.frames.tail = e.frames := h.callers
  obtain ⟨hdynamic, hconstants⟩ := h.shared (Nat.succ_pos _)
  have hlength := h.scopeDepth
  have houter := h.outerScopes
  cases hs : after.scopes with
  | nil => simp [procedureScopes, pushScope, pushFrame, hs] at hlength
  | cons scope rest =>
    simp only [procedureScopes, pushScope, pushFrame, hs, List.cons_append, List.tail_cons,
      List.append_singleton_inj] at houter
    simp only [popFrame, popScope, hs, List.tail_cons, hframes, hdynamic, hconstants, houter]
    rfl

theorem drift : Drift Keeps :=
  ⟨refl, trans, setCurrent, defineProcedure⟩

end Keeps

end Environment

namespace Eval

variable {α : Type}

/-- What `let global` checks before it computes a value. -/
def constantCheck (name : String) (e : Environment) : Except Fault Unit :=
  match e.currentProcedure? with
  | some procedure => .error (.runtime (.constantInside name procedure))
  | none => if e.isConstant name then .error (.constantReassignment name) else .ok ()

theorem checkConstant_eq (name : String) :
    (checkConstant name : Eval σ Unit) = ask fun s => constantCheck name s.env := by
  funext s
  change (match s.env.currentProcedure? with
    | some procedure => fail (.runtime (.constantInside name procedure))
    | none => if s.env.isConstant name then fail (.constantReassignment name) else pure () :
      Eval σ Unit) s = ofExcept (constantCheck name s.env) s
  unfold constantCheck
  cases s.env.currentProcedure? with
  | some procedure => rfl
  | none =>
    dsimp only
    split
    · rfl
    · rfl

theorem checkConstant_bind_of_error {name : String} {s : State σ} {fault : Fault}
    {f : Unit → Eval σ α} (h : constantCheck name s.env = .error fault) :
    (checkConstant name >>= f) s = (.error (.fault fault), s) := by
  rw [checkConstant_eq]
  exact bind_of_error (ask_of_error h)

theorem checkConstant_bind_of_ok {name : String} {s : State σ} {f : Unit → Eval σ α}
    (h : constantCheck name s.env = .ok ()) : (checkConstant name >>= f) s = f () s := by
  rw [checkConstant_eq]
  exact bind_of_ok (ask_of_ok h)

theorem frameDepth_of_constantCheck {name : String} {e : Environment}
    (h : constantCheck name e = .ok ()) : e.frameDepth = 0 := by
  cases hf : e.frames with
  | nil => simp [Environment.frameDepth, hf]
  | cons frame rest => simp [constantCheck, Environment.currentProcedure?, hf] at h

theorem setConstant_outside (name : String) (value : Node) {s : State σ}
    (h : s.env.frameDepth = 0) : s.env.Keeps (setConstant name value s).2.env := by
  change s.env.Keeps ((ofExcept (s.env.defineConstant name value) >>= fun next =>
    modifyEnv (fun _ => next) >>= fun _ => pure value : Eval σ Node) s).2.env
  unfold Environment.defineConstant
  split
  · exact Environment.Keeps.refl s.env
  · exact Environment.Keeps.ofConstants h _

/-- The computation leaves alone what evaluation has to. -/
def Keeping (x : Eval σ α) : Prop :=
  ∀ s : State σ, s.env.Keeps (x s).2.env

namespace Keeping

open Environment

/-- What leaves the scopes as they are. -/
theorem ofEnv {x : Eval σ α} (h : ∀ s, (x s).2.env = s.env) : Keeping x :=
  Along.ofEnv Keeps.drift h

theorem ask (f : State σ → Except Fault α) : Keeping (ask f) :=
  Along.ask Keeps.drift f

theorem ofExcept (r : Except Fault α) : Keeping (ofExcept r : Eval σ α) :=
  Along.ofExcept Keeps.drift r

theorem setVariable (name : String) (value : Node) :
    Keeping (setVariable name value : Eval σ Node) :=
  Along.setVariable Keeps.drift name value

theorem programPath (setup : Setup σ) (name : String) : Keeping (programPath setup name) :=
  Along.programPath Keeps.drift setup name

/-- Inside a procedure `let global` fails at once; outside, computing the value starts none. -/
theorem constant {x : Eval σ Node} (name : String) (hx : Keeping x) :
    Keeping (checkConstant name >>= fun _ => x >>= fun value => setConstant name value) := by
  intro s
  cases hcheck : constantCheck name s.env with
  | error e =>
    rw [checkConstant_bind_of_error hcheck]
    exact Keeps.refl s.env
  | ok _ =>
    rw [checkConstant_bind_of_ok hcheck]
    refine Along.bind_at Keeps.drift hx fun value s' hs => setConstant_outside name value ?_
    rw [hs.frameDepth]
    exact frameDepth_of_constantCheck hcheck

theorem inFrame_env {x : Eval σ α} (name : String) (bindings : Table Node) (hx : Keeping x)
    (s : State σ) : (inFrame name bindings x s).2.env = s.env :=
  (hx { s with env := (s.env.pushFrame name bindings).pushScope }).popScope_popFrame

end Keeping

/-- Keeping as a relation, of which the second side is not used. -/
def keepingCongruence (setup : Setup σ) : Congruence setup setup :=
  Along.congruence Environment.Keeps.drift setup Keeping.constant

theorem keepingCongruence_frames (setup : Setup σ) :
    Congruence.Frames fun _ : Unit => keepingCongruence setup where
  inFrame _ name bindings _ _ hx := Keeping.ofEnv (Keeping.inFrame_env name bindings (hx ()))
  exit _ _ := Keeping.ofEnv fun _ => rfl

theorem reentry_keeps (setup : Setup σ) (active : Nat) :
    (keepingCongruence setup).Reenters (setup.reentry active) (setup.reentry active) :=
  Congruence.reentry (keepingCongruence_frames setup) rfl rfl active ()

end Eval

/-- A call of a procedure leaves the whole environment as it found it. -/
theorem Session.invoke_env (setup : Setup σ) (name : String) (p : Procedure) (args : List Node)
    (s : State σ) : (Session.invoke setup name p args s).2.env = s.env := by
  unfold Session.invoke Reentry.invoke
  split
  · unfold Setup.reentry
    rw [Eval.withRoom_enter]
    split
    · refine Eval.Keeping.inFrame_env _ _ ?_ s
      exact (Eval.keepingCongruence setup).execute (Eval.reentry_keeps setup _) _
    · rfl
  · rfl

/-- **Every request leaves the stacks as it found them, however it ends.** -/
theorem Session.request_keeps (setup : Setup σ) (s : State σ) :
    (∀ n, s.env.Keeps (Session.evalNode setup n s).2.env) ∧
    (∀ program, s.env.Keeps (Session.execute setup program s).2.env) ∧
    (∀ name args, s.env.Keeps (Session.callNamed setup name args s).2.env) ∧
    (∀ f args, s.env.Keeps (Session.callNode setup f args s).2.env) ∧
    (∀ path, s.env.Keeps (Session.loadFile setup path s).2.env) := by
  have hre := Eval.reentry_keeps setup s.env.frameDepth
  refine ⟨fun n => ?_, fun program => ?_, fun name args => ?_, fun f args => ?_, fun path => ?_⟩
  · exact (Eval.keepingCongruence setup).evalNode hre n s
  · exact (Eval.keepingCongruence setup).execute hre program s
  · exact (Eval.keepingCongruence setup).callNamed hre name args s
  · exact (Eval.keepingCongruence setup).callNode hre f args s
  · exact (Eval.keepingCongruence setup).loadFile hre path s

end ExprShell
