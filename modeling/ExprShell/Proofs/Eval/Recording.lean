/-
The pipelines that an evaluation asks its host for (`Eval.requests`). They are put on record by a
shell whose host carries a list of them (`Setup.recorded`). It evaluates as the shell without a
record does, and what an evaluation adds to the record is the same whatever is on it already
(`Records`), so the requests of an evaluation are those of its parts, one after the other
(`Asks.bind`).
-/
import ExprShell.Proofs.Eval.Watch

namespace ExprShell

variable {σ α β : Type}

namespace Setup

/-- The shell on a host that carries a record of requests. -/
def recorded (setup : Setup σ) : Setup (σ × List Request) :=
  setup.carrying fun request log => log ++ [request]

theorem recorded_read (setup : Setup σ) (text : String) :
    setup.read text = setup.recorded.read text :=
  rfl

/-- Reentry with a budget for nested runs and room for frames. -/
def within (setup : Setup σ) (budget room : Nat) : Reentry σ :=
  setup.withRoom (setup.nested budget) room

end Setup

/-- A state is known with what it carries. -/
theorem State.carrying_inj {ω : Type} {s s' : State σ} {load load' : ω} :
    s.carrying load = s'.carrying load' ↔ s = s' ∧ load = load' := by
  constructor
  · intro h
    obtain ⟨env, host⟩ := s
    obtain ⟨env', host'⟩ := s'
    cases h
    exact ⟨rfl, rfl⟩
  · rintro ⟨rfl, rfl⟩
    rfl

namespace Eval

/-! ## Requests of a computation -/

/-- From a state the computation comes to an outcome and a state, and makes these requests on the
way, whatever is on record already. -/
def Asks (x : Eval (σ × List Request) α) (s : State σ) (r : Except Halt α) (s' : State σ)
    (calls : List Request) : Prop :=
  ∀ log, x (s.carrying log) = (r, s'.carrying (log ++ calls))

namespace Asks

variable {x : Eval (σ × List Request) α} {x' : Eval σ α} {f : α → Eval (σ × List Request) β}
  {s s' s'' : State σ} {calls more : List Request}

theorem ofCarries {r : Except Halt α} (h : Carries x x') (hx : x' s = (r, s')) :
    Asks x s r s' [] := by
  intro log
  rw [List.append_nil, h.same s log, hx]

theorem pure (a : α) (s : State σ) : Asks (pure a) s (.ok a) s [] :=
  ofCarries (.pure a) rfl

theorem fail (f : Fault) (s : State σ) :
    Asks (fail f : Eval (σ × List Request) α) s (.error (.fault f)) s [] :=
  ofCarries (.fail f) rfl

theorem bind {a : α} {r : Except Halt β} (hx : Asks x s (.ok a) s' calls)
    (hf : Asks (f a) s' r s'' more) : Asks (x >>= f) s r s'' (calls ++ more) := by
  intro log
  rw [bind_of_ok (hx log), ← List.append_assoc]
  exact hf _

theorem bind_error {e : Halt} (hx : Asks x s (.error e) s' calls) :
    Asks (x >>= f) s (.error e) s' calls :=
  fun log => bind_of_error (hx log)

/-- A value that comes without a request. -/
theorem bind_quiet {a : α} {r : Except Halt β} (hx : Asks x s (.ok a) s' [])
    (hf : Asks (f a) s' r s'' calls) : Asks (x >>= f) s r s'' calls :=
  hx.bind hf

theorem map {g : α → β} {r : Except Halt α} (hx : Asks x s r s' calls) :
    Asks (x >>= fun a => Pure.pure (g a)) s (r.map g) s' calls := by
  cases r with
  | ok a =>
    rw [← List.append_nil calls]
    exact hx.bind (pure (g a) s')
  | error e => exact hx.bind_error

theorem unique {r r' : Except Halt α} (h : Asks x s r s' calls) (h' : Asks x s r' s'' more) :
    r = r' ∧ s' = s'' ∧ calls = more := by
  have heq := (h []).symm.trans (h' [])
  rw [Prod.mk.injEq, State.carrying_inj] at heq
  exact heq

theorem programPath {setup : Setup σ} {name : String} {r : Except Halt String}
    (h : programPath setup name s = (r, s')) : Asks (programPath setup.recorded name) s r s' [] :=
  ofCarries (.programPath setup _ name) h

theorem pipeline (setup : Setup σ) (commands : List Command) (input : Option String)
    (mode : OutputMode) (s : State σ) :
    Asks (setup.recorded.pipeline commands input mode) s (setup.pipeline commands input mode s).1
      (setup.pipeline commands input mode s).2 [⟨commands, input, mode⟩] :=
  pipeline_carrying setup _ commands input mode s

end Asks

/-! ## Evaluation on record -/

/-- The first computation is the second one on record. -/
def Records (x : Eval (σ × List Request) α) (x' : Eval σ α) : Prop :=
  ∀ s, ∃ calls, Asks x s (x' s).1 (x' s).2 calls

namespace Records

variable {x : Eval (σ × List Request) α} {x' : Eval σ α}

theorem ofCarries (h : Carries x x') : Records x x' :=
  fun _ => ⟨[], .ofCarries h rfl⟩

theorem ask {f : State (σ × List Request) → Except Fault α} {f' : State σ → Except Fault α}
    (h : ∀ s log, f (s.carrying log) = f' s) : Records (ask f) (ask f') :=
  ofCarries (.ask h)

theorem halt (e : Halt) : Records (halt e : Eval (σ × List Request) α) (halt e) :=
  fun s => ⟨[], fun log => by rw [List.append_nil]; rfl⟩

theorem bind {f : α → Eval (σ × List Request) β} {f' : α → Eval σ β} (hx : Records x x')
    (hf : ∀ a, Records (f a) (f' a)) : Records (x >>= f) (x' >>= f') := by
  intro s
  obtain ⟨calls, hcalls⟩ := hx s
  cases h : x' s with
  | mk r t =>
    rw [h] at hcalls
    cases r with
    | ok a =>
      obtain ⟨more, hmore⟩ := hf a t
      rw [bind_of_ok h]
      exact ⟨calls ++ more, hcalls.bind hmore⟩
    | error e =>
      rw [bind_of_error h]
      exact ⟨calls, hcalls.bind_error⟩

theorem attempt (hx : Records x x') : Records (attempt x) (attempt x') := by
  intro s
  obtain ⟨calls, hcalls⟩ := hx s
  exact ⟨calls, fun log => attempt_of_eq (hcalls log)⟩

theorem rescue {mend : Fault → Eval (σ × List Request) α} {mend' : Fault → Eval σ α}
    (hx : Records x x') (hmend : ∀ f, Records (mend f) (mend' f)) :
    Records (rescue x mend) (rescue x' mend') := by
  refine bind hx.attempt fun outcome => ?_
  rcases outcome with (f | status | _ | _) | a
  · exact hmend f
  · exact halt _
  · exact halt _
  · exact halt _
  · exact ofCarries (.pure a)

theorem inFrame (name : String) (bindings : Table Node) (hx : Records x x') :
    Records (inFrame name bindings x) (inFrame name bindings x') := by
  intro s
  obtain ⟨calls, hcalls⟩ := hx { s with env := (s.env.pushFrame name bindings).pushScope }
  exact ⟨calls, fun log => Watched.inFrame_of_eq (s := s.carrying log) (hcalls log)⟩

end Records

/-- The record, as a relation between all evaluation with it and without. -/
def recording (setup : Setup σ) : Congruence setup.recorded setup where
  rel x x' := Records x x'
  pure a := .ofCarries (.pure a)
  bind := Records.bind
  fail f := .ofCarries (.fail f)
  exhausted := .halt .exhausted
  rescue := Records.rescue
  read := setup.recorded_read
  lookup _ := .ask fun _ _ => rfl
  defined _ := .ask fun _ _ => rfl
  constant name hx := Records.bind (.ofCarries (.checkConstant name)) fun _ =>
    Records.bind hx fun value => .ofCarries (.setConstant name value)
  setVariable name value := .ofCarries (.setVariable name value)
  bindAll _ := .ofCarries (.modifyEnv _)
  calleeOfName _ _ := .ask fun _ _ => rfl
  calleeOfNode _ _ := .ask fun _ _ => rfl
  programPath name := .ofCarries (.programPath setup _ name)
  readFile path := .ofCarries (.askHost (setup.host.readFile · path))
  tool t args := .ofCarries (.tool setup.host _ setup.settings.searchPath t args)
  pipeline commands input mode s :=
    ⟨[⟨commands, input, mode⟩], .pipeline setup commands input mode s⟩

theorem recording_frames (setup : Setup σ) :
    Congruence.Frames fun _ : Unit => recording setup where
  inFrame _ name bindings _ _ h := Records.inFrame name bindings (h ())
  exit _ status := Records.halt (.exit status)

theorem within_recorded (setup : Setup σ) (budget room : Nat) :
    (recording setup).Reenters (setup.recorded.within budget room) (setup.within budget room) := by
  have hf := recording_frames setup
  exact Congruence.withRoom hf rfl (Congruence.nested hf rfl budget) room ()

/-! ## Requests of an evaluation -/

/-- The pipelines that the evaluation of a node asks the host for, in order. -/
def requests (setup : Setup σ) (budget room : Nat) (n : Node) (s : State σ) : List Request :=
  (evalNode setup.recorded (setup.recorded.within budget room) n (s.carrying [])).2.host.2

/-- **On record** a node evaluates as it does without, and its requests are added to the record. -/
theorem evalNode_asks (setup : Setup σ) (budget room : Nat) (n : Node) (s : State σ) :
    Asks (evalNode setup.recorded (setup.recorded.within budget room) n) s
      (evalNode setup (setup.within budget room) n s).1
      (evalNode setup (setup.within budget room) n s).2 (requests setup budget room n s) := by
  obtain ⟨calls, hcalls⟩ := (recording setup).evalNode (within_recorded setup budget room) n s
  have hrequests : requests setup budget room n s = calls := by
    -- The record is empty at first, so what is on it afterwards is what was added.
    unfold requests
    rw [hcalls []]
    rfl
  rw [hrequests]
  exact hcalls

end Eval

end ExprShell
