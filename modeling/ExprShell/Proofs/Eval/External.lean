/-
External forms (`Eval.external_all_or_nothing`): pipelines, substitutions, here-strings, and calls
with variables in front. A form is written as stages, and a here-string as a text besides. All its
stages are built before it asks the host for anything itself, so a stage that cannot be built keeps
all of them from running, and what the host was asked for by then are requests of operands.
-/
import ExprShell.Machine.Host
import ExprShell.Proofs.Eval.Stages

namespace ExprShell

variable {σ : Type}

/-! ## Forms -/

/-- A form that runs programs, by what it is given. -/
inductive External where
  | pipeline (calls : List Node)
  | substitution (items : List Node)
  | hereString (items : List Node)
  /-- A list of variables at the head of a call. -/
  | prefixed (first : Node) (rest : List Node) (data : first.isData = true)

namespace External

open Eval (Stage)

def items (t : Stamp) : External → List Node
  | pipeline calls => .operator t Form.pipeline.name :: calls
  | substitution items => .operator t Form.substitution.name :: items
  | hereString items => .operator t Form.hereString.name :: items
  | prefixed first rest _ => first :: rest

/-- The form as a node; a form that is quoted would be data. -/
def node (form : External) (t u : Stamp) : Node :=
  .list { t with quoted := false } (form.items u)

/-- The stage that a call is written as. -/
def stageOf (n : Node) : Stage :=
  if n.isCall then n.asList else .error (.wrongKind "a command" n)

theorem stageOf_call {t : Stamp} (ht : t.quoted = false) (head : Node) (rest : List Node) :
    stageOf (.list t (head :: rest)) = .ok (head :: rest) := by
  simp [stageOf, Node.isCall, Node.asList, ht]

theorem stageOf_quoted {t : Stamp} (ht : t.quoted = true) (items : List Node) :
    stageOf (.list t items) = .error (.mistyped "a command" Kind.list.name) := by
  cases items with
  | nil => rfl
  | cons head rest =>
    rw [stageOf, Node.isCall, ht]
    rfl

/-- The stages of a pipeline, of which there has to be one. -/
def pipelineStages : List Node → List Stage
  | [] => [.error (.runtime .emptyPipeline)]
  | calls => calls.map stageOf

/-- The stages of a call that may be a pipeline. -/
def commandStages : Node → List Stage
  | .list t (head :: rest) =>
    if t.quoted = false ∧ head.operatorName? = some Form.pipeline.name then pipelineStages rest
    else [stageOf (.list t (head :: rest))]
  | n => [stageOf n]

/-- The stages of a form. One with too few or too many items has no stage that can be built. -/
def stages : External → List Stage
  | pipeline calls => pipelineStages calls
  | substitution [] => [.error (.arity Form.substitution.name 1 0)]
  | substitution [n] => if n.isCall then commandStages n else [.ok [n]]
  | substitution items => [.ok items]
  | hereString [_, n] => commandStages n
  | hereString items => [.error (.arity Form.hereString.name 2 items.length)]
  | prefixed first rest _ => [.ok (first :: rest)]

/-- The text that is fed to the first stage. -/
def text? : External → Option Node
  | hereString [text, _] => some text
  | _ => none

/-- The operands of a form: the text, and then those of its stages. -/
def operands (form : External) : List Node :=
  form.text?.toList ++ form.stages.flatMap Eval.stageOperands

def mode : External → OutputMode
  | substitution _ => .capture
  | _ => .inherit

/-- What a form comes to: the output if it is captured, and the status otherwise. -/
def answer (form : External) (done : Completed) : Node :=
  match form.mode with
  | .capture => .ofString (Text.chomp (done.stdout.getD ""))
  | .inherit => .status done.status

end External

namespace Eval

/-- A form is built when its text, if it has one, and its stages are. -/
inductive BuildsForm (setup : Setup σ) (re : Reentry σ) (form : External) :
    State σ → List (Step σ) → Except Halt Request → State σ → Prop
  | alone {s s' : State σ} {steps : List (Step σ)} {r : Except Halt (List Command)} :
    form.text? = none → BuildsAll setup re s form.stages steps r s' →
    BuildsForm setup re form s steps (r.map fun commands => ⟨commands, none, form.mode⟩) s'
  | textHalts {s s' : State σ} {n : Node} {e : Halt} :
    form.text? = some n → evalNode setup re n s = (.error e, s') →
    BuildsForm setup re form s [⟨n, s⟩] (.error e) s'
  | fed {s s' s'' : State σ} {n text : Node} {steps : List (Step σ)}
    {r : Except Halt (List Command)} :
    form.text? = some n → evalNode setup re n s = (.ok text, s') →
    BuildsAll setup re s' form.stages steps r s'' →
    BuildsForm setup re form s (⟨n, s⟩ :: steps)
      (r.map fun commands => ⟨commands, some text.plain, form.mode⟩) s''

theorem BuildsForm.total (setup : Setup σ) (re : Reentry σ) (form : External) (s : State σ) :
    ∃ steps built s', BuildsForm setup re form s steps built s' := by
  cases htext : form.text? with
  | none =>
    obtain ⟨steps, r, s', hstages⟩ := BuildsAll.total setup re s form.stages
    exact ⟨_, _, s', .alone htext hstages⟩
  | some n =>
    cases hn : evalNode setup re n s with
    | mk outcome s' =>
      cases outcome with
      | error e => exact ⟨_, _, s', .textHalts htext hn⟩
      | ok text =>
        obtain ⟨steps, r, s'', hstages⟩ := BuildsAll.total setup re s' form.stages
        exact ⟨_, _, s'', .fed htext hn hstages⟩

theorem BuildsForm.covers {setup : Setup σ} {re : Reentry σ} {form : External} {s s' : State σ}
    {steps : List (Step σ)} {built : Except Halt Request}
    (h : BuildsForm setup re form s steps built s') : Covers steps form.operands built := by
  unfold External.operands
  cases h with
  | alone htext hstages =>
    rw [htext]
    exact .after List.map_nil hstages.covers _
  | textHalts htext =>
    rw [htext]
    exact .halted (by simp)
  | fed htext _ hstages =>
    rw [htext]
    exact hstages.covers.step _ _ _

/-! ## Evaluation of forms -/

/-- The text to be fed to a form. -/
def evalText (setup : Setup σ) (re : Reentry σ) : Option Node → Eval σ (Option String)
  | none => pure none
  | some n => do
    let text ← evalNode setup re n
    return some text.plain

/-- What a form asks the host for. -/
def buildForm (setup : Setup σ) (re : Reentry σ) (form : External) : Eval σ Request := do
  let input ← evalText setup re form.text?
  let commands ← buildStages setup re form.stages
  return ⟨commands, input, form.mode⟩

/-- The answer of a form to what it asked for. -/
def perform (setup : Setup σ) (form : External) (request : Request) : Eval σ Node := do
  let done ← setup.pipeline request.commands request.input request.mode
  return form.answer done

theorem bind_assoc {α β γ : Type} (x : Eval σ α) (f : α → Eval σ β) (g : β → Eval σ γ) :
    x >>= f >>= g = x >>= fun a => f a >>= g := by
  funext s
  cases h : x s with
  | mk r t =>
    cases r with
    | error e => rw [bind_of_error h, bind_of_error (bind_of_error h)]
    | ok a =>
      have hf : (x >>= f) s = f a t := bind_of_ok h
      rw [bind_of_ok h]
      cases hfa : f a t with
      | mk r' t' =>
        cases r' with
        | ok b => rw [bind_of_ok (hf.trans hfa), bind_of_ok hfa]
        | error e => rw [bind_of_error (hf.trans hfa), bind_of_error hfa]

section Forms

variable (setup : Setup σ) (re : Reentry σ)

theorem evalCommand_eq (n : Node) : evalCommand setup re n =
    ofExcept (External.stageOf n) >>= evalStage setup re [] := by
  cases n with
  | list t items =>
    cases items with
    | nil => rfl
    | cons head rest =>
      rw [evalCommand]
      split
      · next ht =>
        rw [External.stageOf_quoted ht]
        rfl
      · next ht =>
        rw [External.stageOf_call (eq_false_of_ne_true ht)]
        rfl
  | _ => rfl

theorem evalStages_eq (calls : List Node) :
    evalStages setup re calls = buildStages setup re (calls.map External.stageOf) := by
  induction calls with
  | nil => rfl
  | cons n rest ih =>
    rw [evalStages, evalCommand_eq, ih, List.map_cons, buildStages]
    cases External.stageOf n with
    | _ => rfl

theorem evalPipeline_eq (calls : List Node) :
    evalPipeline setup re calls = buildStages setup re (External.pipelineStages calls) := by
  cases calls with
  | nil => rfl
  | cons n rest => exact evalStages_eq setup re (n :: rest)

theorem buildStages_singleton (stage : Stage) :
    buildStages setup re [stage] = ofExcept stage >>= fun items =>
      evalStage setup re [] items >>= fun command => pure [command] :=
  rfl

theorem evalCommands_eq (n : Node) :
    evalCommands setup re n = buildStages setup re (External.commandStages n) := by
  cases n with
  | list t items =>
    cases items with
    | nil => rfl
    | cons head rest =>
      rw [evalCommands, External.commandStages]
      by_cases ht : t.quoted = true
      · rw [if_pos ht, if_neg (by simp [ht]), External.stageOf_quoted ht]
        rfl
      · have ht : t.quoted = false := eq_false_of_ne_true ht
        by_cases hhead : head.operatorName? = some Form.pipeline.name
        · rw [if_neg (by simp [ht]), if_pos hhead, if_pos ⟨ht, hhead⟩, evalPipeline_eq]
        · rw [if_neg (by simp [ht]), if_neg hhead, if_neg (by simp [hhead]),
            External.stageOf_call ht, buildStages_singleton]
          rfl
  | _ => rfl

theorem buildForm_of_none {form : External} (h : form.text? = none) :
    buildForm setup re form >>= perform setup form =
      buildStages setup re form.stages >>= fun commands =>
        perform setup form ⟨commands, none, form.mode⟩ := by
  rw [buildForm, h]
  exact bind_assoc (buildStages setup re form.stages) _ _

theorem buildForm_of_some {form : External} {n : Node} (h : form.text? = some n) :
    buildForm setup re form >>= perform setup form =
      evalNode setup re n >>= fun text => buildStages setup re form.stages >>= fun commands =>
        perform setup form ⟨commands, some text.plain, form.mode⟩ := by
  rw [buildForm, h]
  change ((evalNode setup re n >>= fun text => pure (some text.plain)) >>= fun input =>
    buildStages setup re form.stages >>= fun commands => pure ⟨commands, input, form.mode⟩) >>=
      perform setup form = _
  rw [bind_assoc, bind_assoc]
  refine congrArg (evalNode setup re n >>= ·) (funext fun text => ?_)
  exact bind_assoc (buildStages setup re form.stages) _ _

theorem buildForm_of_stage {form : External} (h : form.text? = none) {items : List Node}
    (hstages : form.stages = [.ok items]) :
    buildForm setup re form >>= perform setup form =
      evalStage setup re [] items >>= fun command =>
        perform setup form ⟨[command], none, form.mode⟩ := by
  rw [buildForm_of_none setup re h, hstages]
  exact bind_assoc (evalStage setup re [] items) _ _

theorem evalCall_substitution (t : Stamp) (items : List Node) :
    evalCall setup re (.operator t Form.substitution.name :: items) =
      if Node.spellCommand items then
        evalStage setup re [] items >>= fun command => capture setup [command]
      else evalLone setup re items >>= fun commands => capture setup commands :=
  rfl

theorem evalCall_data {first : Node} (hdata : first.isData = true) (rest : List Node) :
    evalCall setup re (first :: rest) =
      evalStage setup re [] (first :: rest) >>= fun command => setup.runShown [command] none := by
  cases first with
  | list t items =>
    simp only [evalCall, evalStage, if_pos hdata, List.nil_append]
  | _ => cases hdata

/-- A form asks for what it built and answers with what comes of it. -/
theorem evalNode_external (form : External) (t u : Stamp) :
    evalNode setup re (form.node t u) = buildForm setup re form >>= perform setup form := by
  have hcall : evalNode setup re (form.node t u) = evalCall setup re (form.items u) := rfl
  rw [hcall]
  cases form with
  | pipeline calls =>
    rw [buildForm_of_none setup re rfl, External.stages, ← evalPipeline_eq]
    rfl
  | substitution items =>
    rw [External.items, evalCall_substitution]
    rcases items with _ | ⟨n, _ | ⟨second, rest⟩⟩
    · rfl
    · -- One call is a command or a pipeline; one item that is no call names a program.
      by_cases hn : n.isCall = true
      · rw [if_neg (by simp [Node.spellCommand, hn]), buildForm_of_none setup re rfl,
          External.stages, if_pos hn, ← evalCommands_eq]
        rfl
      · have hstages : (External.substitution [n]).stages = [.ok [n]] := by
          rw [External.stages, if_neg hn]
        rw [if_pos (by simp [Node.spellCommand, hn]), buildForm_of_stage setup re rfl hstages]
        rfl
    · rw [buildForm_of_stage setup re rfl rfl]
      rfl
  | hereString items =>
    rcases items with _ | ⟨text, _ | ⟨n, _ | ⟨third, rest⟩⟩⟩
    · rfl
    · rfl
    · rw [buildForm_of_some setup re (n := text) rfl, External.stages, ← evalCommands_eq]
      rfl
    · rfl
  | prefixed first rest data =>
    rw [External.items, evalCall_data setup re data, buildForm_of_stage setup re rfl rfl]
    rfl

end Forms

/-- The form is built by the rules with the requests of its operands. -/
theorem BuildsForm.asks {setup : Setup σ} {budget room : Nat} {form : External} {s s' : State σ}
    {steps : List (Step σ)} {built : Except Halt Request}
    (h : BuildsForm setup (setup.within budget room) form s steps built s') :
    Asks (buildForm setup.recorded (setup.recorded.within budget room) form) s built s'
      (requestsOf setup budget room steps) := by
  unfold buildForm
  cases h with
  | alone htext hstages =>
    rw [htext]
    exact (Asks.pure _ s).bind_quiet hstages.asks.map
  | textHalts htext hn =>
    rw [htext, requestsOf_singleton]
    exact (asks_of_evalNode hn).bind_error.bind_error
  | fed htext hn hstages =>
    rw [htext]
    exact (asks_of_evalNode hn).map.bind hstages.asks.map

/-- A form that was built makes its one request. -/
theorem perform_asks (setup : Setup σ) (form : External) (request : Request) (s : State σ) :
    Asks (perform setup.recorded form request) s (perform setup form request s).1
      (perform setup form request s).2 [request] := by
  have hrequest := Asks.pipeline setup request.commands request.input request.mode s
  cases h : setup.pipeline request.commands request.input request.mode s with
  | mk r t =>
    rw [h] at hrequest
    have hperform : perform setup form request s = (r.map form.answer, t) := by
      cases r with
      | ok done => exact bind_of_ok h
      | error e => exact bind_of_error h
    rw [hperform]
    exact hrequest.map

/-- **External forms are all or nothing.** Building a form evaluates operands, from the left and
each at most once, with checks between them (`BuildsForm`). If it fails then the form comes to that
first failure, and the host was asked for nothing but what the operands evaluated by then asked for.
Otherwise all operands were evaluated, and the host is asked for one thing more, which is a pipeline
of the commands that were built. The host that keeps the record changes nothing in this. -/
theorem external_all_or_nothing (setup : Setup σ) (budget room : Nat) (s : State σ)
    (form : External) (t u : Stamp) :
    let re := setup.within budget room
    let n := form.node t u
    Asks (evalNode setup.recorded (setup.recorded.within budget room) n) s
        (evalNode setup re n s).1 (evalNode setup re n s).2 (requests setup budget room n s) ∧
      ∃ steps s',
        (∃ e, BuildsForm setup re form s steps (.error e) s' ∧
          steps.map Step.node <+: form.operands ∧
          evalNode setup re n s = (.error e, s') ∧
          requests setup budget room n s = requestsOf setup budget room steps) ∨
        ∃ request, BuildsForm setup re form s steps (.ok request) s' ∧
          steps.map Step.node = form.operands ∧
          evalNode setup re n s = perform setup form request s' ∧
          requests setup budget room n s = requestsOf setup budget room steps ++ [request] := by
  intro re n
  have hrecord := evalNode_asks setup budget room n s
  have hform := hrecord
  rw [evalNode_external setup.recorded] at hform
  obtain ⟨steps, built, s', hbuilds⟩ := BuildsForm.total setup re form s
  refine ⟨hrecord, steps, s', ?_⟩
  cases built with
  | error e =>
    obtain ⟨hresult, hstate, hrequests⟩ := hform.unique hbuilds.asks.bind_error
    exact .inl ⟨e, hbuilds, hbuilds.covers.first, Prod.ext hresult hstate, hrequests⟩
  | ok request =>
    have hasks := hbuilds.asks.bind (perform_asks setup form request s')
    obtain ⟨hresult, hstate, hrequests⟩ := hform.unique hasks
    exact .inr ⟨request, hbuilds, hbuilds.covers.all rfl, Prod.ext hresult hstate, hrequests⟩

/-- The first stage of this pipeline runs a substitution for its argument, and the second names no
program: all that is run is the substitution. -/
example :
    let setup : Setup Machine := { host := Machine.host }
    let service : Rehearsal := { directory := "/bin", programs := ["echo", "date"], replies := [] }
    let s := Session.start { Machine.fresh with service := .rehearsed service }
    let date : Node := .call [.operator {} "$", .operator {} "date"]
    let form : External :=
      .pipeline [.call [.operator {} "echo", date], .call [.operator {} "none"]]
    requests setup 0 0 (form.node {} {}) s = [⟨[{ program := "/bin/date" }], none, .capture⟩] :=
  rfl

end Eval

end ExprShell
