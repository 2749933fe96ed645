/-
Requests to exit (`Session.exit_final`): wherever in an evaluation the program asks to exit, that is
the outcome of the whole evaluation, and nothing happens after it. Faults can be turned into values
or named after a file on their way out; a request to exit cannot.

All that there is to show is in the events of the evaluation under watch (`Task.accounts`).
-/
import ExprShell.Cli
import ExprShell.Proofs.Eval.Watch
import ExprShell.Proofs.Session.Submissions

namespace ExprShell

variable {σ : Type}

namespace Session

/-! ## Tasks -/

/-- What a session can be asked for. -/
inductive Task where
  | node (n : Node)
  | program (nodes : List Node)
  | named (name : String) (args : List Node)
  | value (f : Node) (args : List Node)
  | procedure (name : String) (p : Procedure) (args : List Node)
  | file (path : String)

namespace Task

/-- The task where the session stands. -/
def perform (setup : Setup σ) : Task → Eval σ Node
  | node n => evalNode setup n
  | program nodes => execute setup nodes
  | named name args => callNamed setup name args
  | value f args => callNode setup f args
  | procedure name p args => invoke setup name p args
  | file path => loadFile setup path

/-- The task as an evaluation with some reentry. -/
def eval (setup : Setup σ) (re : Reentry σ) : Task → Eval σ Node
  | node n => Eval.evalNode setup re n
  | program nodes => Eval.execute setup re nodes
  | named name args => Eval.callNamed setup re name args
  | value f args => Eval.callNode setup re f args
  | procedure name p args => re.invoke name p args
  | file path => Eval.loadFile setup re path

theorem perform_eq (setup : Setup σ) (task : Task) (s : State σ) :
    task.perform setup s = task.eval setup (setup.reentry s.env.frameDepth) s := by
  cases task with
  | _ => rfl

theorem eval_related {τ : Type} {setup : Setup σ} {setup' : Setup τ} {re : Reentry σ}
    {re' : Reentry τ} (c : Eval.Congruence setup setup') (hre : c.Reenters re re') (task : Task) :
    c.rel (task.eval setup re) (task.eval setup' re') := by
  cases task with
  | node n => exact c.evalNode hre n
  | program nodes => exact c.execute hre nodes
  | named name args => exact c.callNamed hre name args
  | value f args => exact c.callNode hre f args
  | procedure name p args => exact c.invoke hre name p args
  | file path => exact c.loadFile hre path

/-- The task under watch. -/
def watch (setup : Setup σ) (task : Task) (s : State σ) :
    Except Halt Node × State (σ × List (Event σ)) :=
  task.eval setup.watched (setup.watchedReentry s.env.frameDepth) (s.watched [])

/-- What happens on the way, in order. -/
def events (setup : Setup σ) (task : Task) (s : State σ) : List (Event σ) :=
  (task.watch setup s).2.host.2

/-- Under watch the task has the same outcome, for which the events account. -/
theorem accounts (setup : Setup σ) (task : Task) (s : State σ) :
    task.watch setup s =
        ((task.perform setup s).1, (task.perform setup s).2.watched (task.events setup s)) ∧
      Accounts (task.events setup s) (task.perform setup s) := by
  have hre := Eval.watchedReentry_reenters setup s.env.frameDepth
  obtain ⟨more, hwatch, haccounts⟩ := eval_related (Eval.watching setup) hre task s []
  rw [← perform_eq] at hwatch haccounts
  have hevents : task.events setup s = more := by
    unfold events watch
    rw [hwatch]
    rfl
  rw [hevents]
  exact ⟨hwatch, haccounts⟩

end Task

end Session

/-! ## Requests to exit -/

namespace Accounts

variable {α : Type} {events : List (Event σ)} {outcome : Except Halt α × State σ}

/-- A request to exit is the last event and the outcome. -/
theorem of_left (h : Accounts events outcome) {before after : List (Event σ)} {status : Nat}
    {s : State σ} (hevents : events = before ++ .left status s :: after) :
    after = [] ∧ status ≤ 255 ∧ ∃ depth, outcome = (.error (.exit status), s.unwound depth) := by
  cases h with
  | goesOn hnone _ =>
    subst hevents
    cases hnone (.left status s) (by simp)
  | @leaves first status' s' depth hnone hstatus =>
    obtain ⟨middle, -, hlast⟩ | ⟨middle, rfl, hlast⟩ := List.append_eq_append_iff.1 hevents
    · cases middle with
      | nil =>
        cases hlast
        exact ⟨rfl, hstatus, depth, rfl⟩
      | cons e rest => simp at hlast
    · cases middle with
      | nil =>
        cases hlast
        exact ⟨rfl, hstatus, depth, rfl⟩
      | cons e rest =>
        cases hlast
        cases hnone (.left status s) (by simp)

theorem of_exit (h : Accounts events outcome) {status : Nat}
    (houtcome : outcome.1 = .error (.exit status)) :
    ∃ before s, events = before ++ [.left status s] := by
  cases h with
  | goesOn _ hnot => exact absurd houtcome (hnot status)
  | @leaves first status' s' depth _ _ =>
    cases houtcome
    exact ⟨first, s', rfl⟩

end Accounts

/-! ## The command line -/

theorem exitStatus_of_le {status : Nat} (h : status ≤ 255) : exitStatus status = status :=
  Nat.mod_eq_of_lt (by omega)

namespace Cli

variable {setup : Setup σ} {s t : State σ} {status : Nat}

theorem evaluate_of_exit {text : String} {nodes : List Node} (hread : setup.read text = .ok nodes)
    (h : Session.execute setup nodes s = (.error (.exit status), t)) (hstatus : status ≤ 255) :
    (evaluate setup text s).1 = status := by
  have hsubmit : Session.submit setup nodes s = (.error (.exit status), Session.reset t) := by
    unfold Session.submit
    rw [h]
  unfold evaluate
  rw [Session.evaluate_of_read setup s hread, hsubmit]
  exact exitStatus_of_le hstatus

theorem script_of_exit {path : String}
    (h : Session.loadFile setup path s = (.error (.exit status), t)) (hstatus : status ≤ 255) :
    (script setup path s).1 = status := by
  unfold script
  rw [h]
  exact exitStatus_of_le hstatus

end Cli

/-- **A request to exit is never swallowed, wrapped or altered.** What happens in an evaluation is
written down by the same evaluation under watch. If a request to exit is among it, then it is the
last that happens, the evaluation ends with it in the state in which it was made, but for the
frames of active calls, and its status is the one that the command line gives for a text or a
script. An evaluation that ends with such a request made it; one that ends with a fault, that of a
loaded file for instance, made none. -/
theorem Session.exit_final (setup : Setup σ) (task : Task) (s : State σ) :
    task.watch setup s =
      ((task.perform setup s).1, (task.perform setup s).2.watched (task.events setup s)) ∧
    (∀ before status there after, task.events setup s = before ++ .left status there :: after →
      after = [] ∧ status ≤ 255 ∧
      (∃ depth, task.perform setup s = (.error (.exit status), there.unwound depth)) ∧
      (∀ text nodes, setup.read text = .ok nodes → task = .program nodes →
        (Cli.evaluate setup text s).1 = status) ∧
      ∀ path, task = .file path → (Cli.script setup path s).1 = status) ∧
    (∀ status, (task.perform setup s).1 = .error (.exit status) →
      ∃ before there, task.events setup s = before ++ [.left status there]) ∧
    ∀ fault, (task.perform setup s).1 = .error (.fault fault) →
      ∀ e ∈ task.events setup s, e.isExit = false := by
  obtain ⟨hwatch, haccounts⟩ := task.accounts setup s
  refine ⟨hwatch, ?_, fun status h => haccounts.of_exit h, fun fault h => ?_⟩
  · intro before status there after hevents
    obtain ⟨hafter, hstatus, depth, houtcome⟩ := haccounts.of_left hevents
    refine ⟨hafter, hstatus, ⟨depth, houtcome⟩, ?_, ?_⟩
    · rintro text nodes hread rfl
      exact Cli.evaluate_of_exit hread houtcome hstatus
    · rintro path rfl
      exact Cli.script_of_exit houtcome hstatus
  · cases houtcome : task.perform setup s with
    | mk r t =>
      rw [houtcome] at h haccounts
      cases h
      exact haccounts.of_fault

/-- A function that exits with its argument, called with 3. -/
def Session.exitingCall : Node :=
  .call [.function {} ["x"] [.call [.operator {} "exit", .identifier {} "x"]], .ofInt64 3]

/-- The request is made in the frame of the function, which is gone in the end. -/
theorem Session.exit_final_call :
    let setup : Setup Machine := { host := Machine.host }
    let s := start Machine.fresh
    let there : State Machine :=
      { s with env := (s.env.pushFrame "lambda" [("x", .ofInt64 3)]).pushScope }
    (Task.node exitingCall).events setup s = [.called "lambda"] ++ .left 3 there :: [] ∧
      ∃ depth, (Task.node exitingCall).perform setup s =
        (.error (.exit 3), there.unwound depth) := by
  intro setup s there
  have hbody (re : Reentry (Machine × List (Event Machine))) (events : List (Event Machine)) :
      Eval.evalNode setup.watched re (.call [.operator {} "exit", .identifier {} "x"])
        (there.watched events) = re.leave 3 (there.watched events) := by
    have hcallee : Callee.ofName setup.watched (there.watched events) "exit" false =
        .ok (.builtin .exit) := rfl
    have hcall : Eval.callNamed setup.watched re "exit" [.ofInt64 3] (there.watched events) =
        re.leave 3 (there.watched events) := by
      rw [Eval.callNamed, List.isEmpty_cons, hcallee]
      simp only [Eval.call]
      rfl
    exact hcall
  have hevents : (Task.node exitingCall).events setup s =
      [.called "lambda"] ++ .left 3 there :: [] := by
    have hframe : (Task.node exitingCall).watch setup s =
        Eval.inFrame "lambda" [("x", .ofInt64 3)] (Eval.execute setup.watched
            (setup.watchedRoom (setup.watchedNested setup.budget) 255)
            [.call [.operator {} "exit", .identifier {} "x"]])
          (s.watched [.called "lambda"]) := rfl
    have hleave : Eval.execute setup.watched
          (setup.watchedRoom (setup.watchedNested setup.budget) 255)
          [.call [.operator {} "exit", .identifier {} "x"]] (there.watched [.called "lambda"]) =
        (.error (.exit 3), there.watched ([.called "lambda"] ++ [.left 3 there])) :=
      Eval.bind_of_error (hbody _ _)
    unfold Task.events
    rw [hframe, Eval.Watched.inFrame_of_eq (s := s.watched _) hleave]
    rfl
  obtain ⟨-, -, hdepth, -⟩ := (exit_final setup _ s).2.1 _ _ _ _ hevents
  exact ⟨hevents, hdepth⟩

end ExprShell
