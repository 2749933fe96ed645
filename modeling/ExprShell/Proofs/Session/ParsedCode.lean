/-
Code that was parsed first and a source text evaluate alike (`Session.eval_parsed`). The builtin
`parse` wraps any number of expressions but one into a call of `do`. Evaluating the arguments of
that call one after the other and keeping the last value is what running a program comes to
(`Eval.execute_asOne`), whatever `do` is bound to elsewhere: builtins are found first.
-/
import ExprShell.Machine.Host
import ExprShell.Proofs.Eval.Congruence
import ExprShell.Proofs.Reader.Agreement

namespace ExprShell

variable {σ : Type}

namespace Eval

variable {setup : Setup σ} {re : Reentry σ}

/-! ## Calls of builtins -/

/-- Nothing that is bound or defined stands in the way of a builtin. -/
theorem callNamed_builtin (b : Builtin) (args : List Node) :
    callNamed setup re b.name args = call setup re (.builtin b) args := by
  funext s
  have hcallee : Callee.ofName setup s b.name args.isEmpty = .ok (.builtin b) := by
    simp [Callee.ofName, Callee.ofCallable?]
  rw [callNamed, hcallee]

/-- No builtin has the name of a form. -/
theorem form_of_builtin (b : Builtin) : Form.ofName? b.name = none := by
  cases b with
  | _ => rfl

theorem evalCall_builtin (stamp : Stamp) (b : Builtin) (args : List Node) :
    evalCall setup re (.operator stamp b.name :: args) =
      evalArgs setup re args >>= fun values => call setup re (.builtin b) values := by
  rw [evalCall, form_of_builtin]
  simp only [callNamed_builtin]

theorem evalArgs_singleton {n v : Node} {s t : State σ} (h : evalNode setup re n s = (.ok v, t)) :
    evalArgs setup re [n] s = (.ok [v], t) :=
  bind_of_ok h

/-- `eval` of an expression is `eval` of its value. -/
theorem evalNode_eval {n v : Node} {s t : State σ} (h : evalNode setup re n s = (.ok v, t))
    (stamp : Stamp) :
    evalNode setup re (.call [.operator stamp Builtin.eval.name, n]) s =
      evalValue setup re v t := by
  change evalCall setup re (.operator stamp Builtin.eval.name :: [n]) s = _
  rw [evalCall_builtin, bind_of_ok (evalArgs_singleton h), call.eq_def]

/-- `eval` has a value or halts, but has no fault. -/
theorem evalValue_ne_fault (n : Node) (s : State σ) (f : Fault) :
    (evalValue setup re n s).1 ≠ .error (.fault f) := by
  intro h
  cases hcode : codeOf setup n with
  | error g =>
    unfold evalValue at h
    rw [hcode] at h
    cases h
  | ok code =>
    rw [evalValue_of_ok hcode] at h
    unfold rescue at h
    cases hrun : re.run code s with
    | mk r t =>
      rw [bind_of_ok (attempt_of_eq hrun)] at h
      rcases r with (_ | _ | _ | _) | _
      all_goals cases h

/-! ## Programs as one expression -/

/-- A sequence is evaluated like arguments, of which the last one is kept. -/
theorem evalSequence_eq (last : Node) (program : List Node) :
    evalSequence setup re last program =
      evalArgs setup re program >>= fun values => pure (values.getLast?.getD last) := by
  induction program generalizing last with
  | nil => rfl
  | cons n rest ih =>
    funext s
    cases hn : evalNode setup re n s with
    | mk r t =>
      cases r with
      | error e =>
        have hargs : evalArgs setup re (n :: rest) s = (.error e, t) := bind_of_error hn
        rw [bind_of_error hargs]
        exact bind_of_error hn
      | ok value =>
        have hfirst : evalSequence setup re last (n :: rest) s =
            evalSequence setup re value rest t := bind_of_ok hn
        rw [hfirst, ih]
        cases hrest : evalArgs setup re rest t with
        | mk r u =>
          cases r with
          | error e =>
            have hargs : evalArgs setup re (n :: rest) s = (.error e, u) :=
              (bind_of_ok hn).trans (bind_of_error hrest)
            rw [bind_of_error hrest, bind_of_error hargs]
          | ok values =>
            have hargs : evalArgs setup re (n :: rest) s = (.ok (value :: values), u) :=
              (bind_of_ok hn).trans (bind_of_ok hrest)
            rw [bind_of_ok hrest, bind_of_ok hargs, List.getLast?_cons]
            rfl

theorem evalNode_sequence (stamp : Stamp) (program : List Node) :
    evalNode setup re (.call (.operator stamp Builtin.sequence.name :: program)) =
      execute setup re program := by
  change evalCall setup re (.operator stamp Builtin.sequence.name :: program) = _
  rw [evalCall_builtin, execute, evalSequence_eq]
  refine congrArg (evalArgs setup re program >>= ·) (funext fun values => ?_)
  rw [call.eq_def]
  rfl

theorem asOne_of_length_ne {program : List Node} (h : program.length ≠ 1) :
    asOne program = .call (.operator {} Builtin.sequence.name :: program) := by
  cases program with
  | nil => rfl
  | cons n rest =>
    cases rest with
    | nil => exact absurd rfl h
    | cons m rest => rfl

/-- A program as one expression runs like the program. -/
theorem execute_asOne (program : List Node) :
    execute setup re [asOne program] = execute setup re program := by
  by_cases h : program.length = 1
  · obtain ⟨n, rfl⟩ := List.length_eq_one_iff.1 h
    rfl
  · rw [asOne_of_length_ne h, execute_singleton, evalNode_sequence]

theorem nested_asOne (budget room : Nat) (program : List Node) :
    setup.nested budget room [asOne program] = setup.nested budget room program := by
  cases budget with
  | zero => rfl
  | succ budget => exact execute_asOne program

/-- Where a session runs programs, one expression is as good as all of them. -/
theorem evalValue_asOne {source : String} {program : List Node}
    (hread : setup.read source = .ok program) (active : Nat) (s t : Stamp) :
    evalValue setup (setup.reentry active) (.rawAst s (asOne program)) =
      evalValue setup (setup.reentry active) (.string t source) := by
  rw [evalValue_of_ok (n := .rawAst s (asOne program)) rfl,
    evalValue_of_ok (n := .string t source) hread]
  unfold Setup.reentry
  rw [withRoom_run, nested_asOne]

theorem call_parse {source : String} {program : List Node}
    (hread : setup.read source = .ok program) (s : State σ) :
    call setup re (.builtin .parse) [.ofString source] s =
      (.ok (.rawAst {} (asOne program)), s) := by
  have hvalue : readValue setup (.ofString source) = .ok (.rawAst {} (asOne program)) := by
    change (setup.read source >>= fun nodes => pure (Node.rawAst {} (asOne nodes))) = _
    rw [hread]
    rfl
  rw [call.eq_def]
  dsimp only
  rw [hvalue]
  rfl

end Eval

namespace Session

open Eval

theorem callNamed_eval (setup : Setup σ) (n : Node) (s : State σ) :
    callNamed setup "eval" [n] s = evalValue setup (setup.reentry s.env.frameDepth) n s := by
  change Eval.callNamed setup _ Builtin.eval.name [n] s = _
  rw [callNamed_builtin, call.eq_def]

/-- **Parsed code evaluates like its text.** If a text can be read within the bound of the settings,
then `parse` gives its expression held back and changes nothing; where there is not exactly one, it
is a call of `do` on all of them. `eval` of that comes to the same as `eval` of the text: a value, an
error made a value, or a request to exit. It leaves the same scopes and the same host, and so the
same calls of processes: the host can be one that writes them down. -/
theorem eval_parsed (setup : Setup σ) (s : State σ) {source : String} {program : List Node}
    (hread : setup.read source = .ok program) :
    ∃ ast, (∀ n, program = [n] → ast = n) ∧
      (program.length ≠ 1 → ast = .call (.operator {} "do" :: program)) ∧
      callNamed setup "parse" [.ofString source] s = (.ok (.rawAst {} ast), s) ∧
      callNamed setup "eval" [.rawAst {} ast] s = callNamed setup "eval" [.ofString source] s ∧
      evalNode setup (.call [.operator {} "eval",
          .call [.operator {} "parse", .ofString source]]) s =
        evalNode setup (.call [.operator {} "eval", .ofString source]) s ∧
      ∀ f, (callNamed setup "eval" [.ofString source] s).1 ≠ .error (.fault f) := by
  have hparsed : Eval.evalNode setup (setup.reentry s.env.frameDepth)
      (.call [.operator {} Builtin.parse.name, .ofString source]) s =
        (.ok (.rawAst {} (asOne program)), s) := by
    change evalCall setup _ (.operator {} Builtin.parse.name :: [.ofString source]) s = _
    rw [evalCall_builtin, bind_of_ok (evalArgs_singleton (v := .ofString source) rfl)]
    exact call_parse hread s
  have hsame := congrFun (evalValue_asOne hread s.env.frameDepth {} {}) s
  refine ⟨asOne program, ?_, asOne_of_length_ne, ?_, ?_, ?_, fun f => ?_⟩
  · rintro n rfl
    rfl
  · change Eval.callNamed setup _ Builtin.parse.name _ s = _
    rw [callNamed_builtin]
    exact call_parse hread s
  · rw [callNamed_eval, callNamed_eval]
    exact hsame
  · exact (evalNode_eval hparsed {}).trans (hsame.trans (evalNode_eval rfl {}).symm)
  · rw [callNamed_eval]
    exact evalValue_ne_fault _ s f

/-- Two statements in a shell that has a procedure named `do`; the first one binds a variable of
that name. -/
theorem eval_parsed_shadowed :
    let setup : Setup Machine := { host := Machine.host }
    let s : State Machine :=
      { env := Environment.defineProcedure {} "do" ⟨[], [.ofString "mine"]⟩, host := Machine.fresh }
    let one : Node := .number { depth := 1 } (.int 1)
    let program : List Node := [.call [.operator { depth := 1 } "let",
      .identifier { depth := 1 } "do", one], .identifier {} "do"]
    setup.read "let do = 1; do" = .ok program ∧
      callNamed setup "eval" [.ofString "let do = 1; do"] s =
        (.ok one, { s with env := s.env.bind "do" one }) := by
  intro setup s one program
  have hlet : Reader.Runs ⟨setup.settings.maxReadDepth, 1⟩ (Reader.Goal.statement.plan 0)
      [⟨"let", 1⟩, ⟨"do", 1⟩, ⟨"=", 1⟩, ⟨"1", 1⟩, ⟨";", 1⟩, ⟨"do", 1⟩]
      (.ok ([.call [.operator { depth := 1 } "let", .identifier { depth := 1 } "do", one]],
        [⟨"do", 1⟩])) :=
    .peek (.shift (.readOk (.peek (.peek (.shift (.peek (.shift (.deeper (by decide)
      (.readOk (.peek (.readOk (.peek (.readOk (.peek (.shift .give)) .give)) .give))
        (.peek (.shift .give))))))))) .give))
  have hread : setup.read "let do = 1; do" = .ok program :=
    Reader.parse_eq_ok_iff.2 ⟨_, rfl, .peek (.readOk hlet (.readOk (.peek
      (.readOk (.peek (.shift (.peekEnd .give))) (.readOk (.peekEnd .give) .give))) .give))⟩
  have hrun : (setup.reentry s.env.frameDepth).run
      [.call (.operator {} Builtin.sequence.name :: program)] s =
        (.ok one, { s with env := s.env.bind "do" one }) := by
    change Eval.execute setup _ _ s = _
    rw [execute_singleton, evalNode_sequence]
    rfl
  obtain ⟨ast, -, hast, -, heval, -⟩ := eval_parsed setup s hread
  refine ⟨hread, heval.symm.trans ?_⟩
  rw [hast (by decide), callNamed_eval, evalValue_of_ok rfl]
  exact bind_of_ok (attempt_of_eq hrun)

end Session

end ExprShell
