/-
Computations of the shell. A computation takes a state (scopes and host) to an outcome and a
next state; the state survives every outcome. Evaluation ends early in four ways: a fault,
a request to exit, nesting beyond the budget for `eval` and `load`, or a missing argument,
which the checks of the evaluator rule out.
-/
import ExprShell.Environment.Basic
import ExprShell.Host.Basic
import ExprShell.Settings

namespace ExprShell

/-- Why an evaluation ended without a value. -/
inductive Halt where
  | fault (f : Fault)
  /-- The program asked to exit with a status. -/
  | exit (status : Nat)
  /-- `eval` and `load` are nested deeper than the budget. -/
  | exhausted
  /-- An argument was used that is not there. -/
  | stuck
  deriving Inhabited, Repr

/-- What evaluation changes. -/
structure State (σ : Type) where
  env : Environment
  host : σ

/-- A computation of the shell. -/
def Eval (σ α : Type) : Type :=
  State σ → Except Halt α × State σ

namespace Eval

variable {σ α β : Type}

instance : Monad (Eval σ) where
  pure a := fun s => (.ok a, s)
  bind x f := fun s =>
    match x s with
    | (.ok a, s) => f a s
    | (.error h, s) => (.error h, s)

def halt (h : Halt) : Eval σ α :=
  fun s => (.error h, s)

def fail (f : Fault) : Eval σ α :=
  halt (.fault f)

def stuck : Eval σ α :=
  halt .stuck

/-- The value of a check that may fail. -/
def ofExcept : Except Fault α → Eval σ α
  | .ok a => pure a
  | .error f => fail f

/-- The outcome of a computation as a value. -/
def attempt (x : Eval σ α) : Eval σ (Except Halt α) := fun s =>
  match x s with
  | (r, s) => (.ok r, s)

/-- The scopes. -/
def env : Eval σ Environment :=
  fun s => (.ok s.env, s)

def modifyEnv (f : Environment → Environment) : Eval σ Unit :=
  fun s => (.ok (), { s with env := f s.env })

/-- What a function sees of the host. -/
def askHost (f : σ → α) : Eval σ α :=
  fun s => (.ok (f s.host), s)

def modifyHost (f : σ → σ) : Eval σ Unit :=
  fun s => (.ok (), { s with host := f s.host })

@[simp] theorem pure_apply (a : α) (s : State σ) : (pure a : Eval σ α) s = (.ok a, s) := rfl

/-- After a value the computation goes on from the state it was left in. -/
theorem bind_of_ok {x : Eval σ α} {f : α → Eval σ β} {s s' : State σ} {a : α}
    (h : x s = (.ok a, s')) : (x >>= f) s = f a s' := by
  change (match x s with
    | (.ok a, s) => f a s
    | (.error h, s) => (.error h, s)) = f a s'
  rw [h]

/-- A halt ends the computation and leaves the state as it is. -/
theorem bind_of_error {x : Eval σ α} {f : α → Eval σ β} {s s' : State σ} {e : Halt}
    (h : x s = (.error e, s')) : (x >>= f) s = (.error e, s') := by
  change (match x s with
    | (.ok a, s) => f a s
    | (.error h, s) => (.error h, s)) = (.error e, s')
  rw [h]

end Eval

end ExprShell
