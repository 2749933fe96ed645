/-
What evaluation can do to the scopes. Outside calls of procedures it writes to the bindings that
`let` writes to, defines procedures, and sets constants; all else leaves the scopes as they are.
So a relation between scopes that the first two of these go along with (`Environment.Drift`) is one
that every tool, pipeline and check goes along with (`Along.tool`, `Along.pipeline`, `Along.ask`).
-/
import ExprShell.Proofs.Eval.Congruence

namespace ExprShell

variable {σ α β : Type}

/-- A relation between scopes before and after, along which bindings and procedures may change. -/
structure Environment.Drift (P : Environment → Environment → Prop) : Prop where
  refl (e : Environment) : P e e
  trans {a b c : Environment} : P a b → P b c → P a c
  setCurrent (e : Environment) (t : Table Node) : P e (e.setCurrent t)
  defineProcedure (e : Environment) (name : String) (p : Procedure) :
    P e (e.defineProcedure name p)

namespace Eval

theorem ask_state (f : State σ → Except Fault α) (s : State σ) : (ask f s).2 = s := by
  unfold ask
  cases f s with
  | ok a => rfl
  | error e => rfl

/-- The scopes after the computation, whatever its outcome, are related to those before it. -/
def Along (P : Environment → Environment → Prop) (x : Eval σ α) : Prop :=
  ∀ s : State σ, P s.env (x s).2.env

namespace Along

open Environment (Drift)

variable {P : Environment → Environment → Prop}

/-- What leaves the scopes as they are. -/
theorem ofEnv (hP : Drift P) {x : Eval σ α} (h : ∀ s, (x s).2.env = s.env) : Along P x := by
  intro s
  rw [h s]
  exact hP.refl s.env

theorem ask (hP : Drift P) (f : State σ → Except Fault α) : Along P (ask f) :=
  ofEnv hP fun s => by rw [ask_state]

theorem ofExcept (hP : Drift P) (r : Except Fault α) : Along P (ofExcept r : Eval σ α) :=
  ask hP fun _ => r

/-- A sequence goes along with what both parts go along with, the second from where the first can
lead to. -/
theorem bind_at (hP : Drift P) {x : Eval σ α} {f : α → Eval σ β} {s : State σ} (hx : Along P x)
    (hf : ∀ (a : α) (s' : State σ), P s.env s'.env → P s'.env (f a s').2.env) :
    P s.env ((x >>= f) s).2.env := by
  have hs := hx s
  cases h : x s with
  | mk r s' =>
    rw [h] at hs
    cases r with
    | ok a =>
      rw [bind_of_ok h]
      exact hP.trans hs (hf a s' hs)
    | error e =>
      rw [bind_of_error h]
      exact hs

theorem bind (hP : Drift P) {x : Eval σ α} {f : α → Eval σ β} (hx : Along P x)
    (hf : ∀ a, Along P (f a)) : Along P (x >>= f) :=
  fun _ => bind_at hP hx fun a s' _ => hf a s'

theorem modifyEnv {f : Environment → Environment} (h : ∀ e, P e (f e)) :
    Along P (modifyEnv f : Eval σ Unit) :=
  fun s => h s.env

theorem attempt {x : Eval σ α} (hx : Along P x) : Along P (attempt x) :=
  fun s => hx s

theorem rescue (hP : Drift P) {x : Eval σ α} {mend : Fault → Eval σ α} (hx : Along P x)
    (hmend : ∀ f, Along P (mend f)) : Along P (rescue x mend) := by
  refine bind hP (attempt hx) fun outcome => ?_
  split
  · exact ofEnv hP fun _ => rfl
  · exact hmend _
  · exact ofEnv hP fun _ => rfl

theorem setVariable (hP : Drift P) (name : String) (value : Node) :
    Along P (setVariable name value : Eval σ Node) := by
  unfold Eval.setVariable
  split
  · exact bind hP (modifyEnv fun e => hP.defineProcedure e name _) fun _ =>
      ofEnv hP fun _ => rfl
  · exact bind hP (modifyEnv fun e => hP.setCurrent e _) fun _ => ofEnv hP fun _ => rfl

theorem pipeline (hP : Drift P) (setup : Setup σ) (commands : List Command)
    (input : Option String) (mode : OutputMode) :
    Along P (setup.pipeline commands input mode) := by
  refine ofEnv hP fun s => ?_
  unfold Setup.pipeline
  split
  · rfl
  · rfl

theorem programPath (hP : Drift P) (setup : Setup σ) (name : String) :
    Along P (programPath setup name) := by
  refine ofEnv hP fun s => ?_
  unfold Eval.programPath
  cases setup.program? s.host name with
  | some path => rfl
  | none => rfl

theorem changeHost (hP : Drift P) (change : σ → Except String σ) (fault : String → Fault) :
    Along P (Tool.changeHost change fault) := by
  refine bind hP (ofEnv hP fun _ => rfl) fun next => ?_
  cases next with
  | ok next => exact ofEnv hP fun _ => rfl
  | error reason => exact ofEnv hP fun _ => rfl

theorem changeDirectory (hP : Drift P) (host : Host σ) (args : List Node) :
    Along P (Tool.changeDirectory host args) := by
  unfold Tool.changeDirectory
  split
  · refine bind hP (ofEnv hP fun _ => rfl) fun home => ?_
    cases home with
    | some path => exact changeHost hP _ _
    | none => exact ofEnv hP fun _ => rfl
  · exact changeHost hP _ _
  · exact ofEnv hP fun _ => rfl

/-- Of the tools only `unset` writes to the scopes, where `let` does. -/
theorem tool (hP : Drift P) (host : Host σ) (path : List String) (t : Tool) (args : List Node) :
    Along P (t.call host path args) := by
  have run : Along P (t.run host path args) := by
    unfold Tool.run
    split
    · exact changeHost hP _ _
    · exact changeHost hP _ _
    · exact changeDirectory hP host _
    · refine bind hP (ofEnv hP fun _ => rfl) fun found => ?_
      cases found with
      | ok path => exact ofEnv hP fun _ => rfl
      | error reason => exact ofEnv hP fun _ => rfl
    · refine bind hP (ofEnv hP fun _ => rfl) fun found => ?_
      cases found with
      | some value => exact ofEnv hP fun _ => rfl
      | none => exact ofEnv hP fun _ => rfl
    · unfold Tool.writeVariable
      split
      · exact ofEnv hP fun _ => rfl
      · split
        · exact ofEnv hP fun _ => rfl
        · exact ofEnv hP fun _ => rfl
    · refine bind hP (ofEnv hP fun _ => rfl) fun found => ?_
      cases found with
      | some value => exact ofEnv hP fun _ => rfl
      | none => exact ofEnv hP fun _ => rfl
    · exact fun s => hP.setCurrent s.env _
    · exact ofEnv hP fun _ => rfl
    · split
      · exact ofExcept hP _
      · exact ofEnv hP fun _ => rfl
  unfold Tool.call
  split
  · split
    · exact run
    · exact ofEnv hP fun _ => rfl
  · exact run

/-- Going along with a relation, as a property of all evaluation: constants and calls of
procedures are left to be shown. -/
def congruence (hP : Drift P) (setup : Setup σ)
    (constant : ∀ {x : Eval σ Node} (name : String), Along P x →
      Along P (checkConstant name >>= fun _ => x >>= fun value => setConstant name value)) :
    Congruence setup setup where
  rel x _ := Along P x
  pure _ := ofEnv hP fun _ => rfl
  bind := bind hP
  fail _ := ofEnv hP fun _ => rfl
  exhausted := ofEnv hP fun _ => rfl
  rescue := rescue hP
  read := read_self setup
  lookup _ := ask hP _
  defined _ := ask hP _
  constant name := constant name
  setVariable := setVariable hP
  bindAll _ := modifyEnv fun e => hP.setCurrent e _
  calleeOfName _ _ := ask hP _
  calleeOfNode _ _ := ask hP _
  programPath := programPath hP setup
  readFile _ := ofEnv hP fun _ => rfl
  tool := tool hP setup.host setup.settings.searchPath
  pipeline := pipeline hP setup

end Along

end Eval

end ExprShell
