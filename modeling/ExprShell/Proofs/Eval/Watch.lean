/-
Evaluation under watch. `Setup.watchedReentry` evaluates as `Setup.reentry` does and writes down
each call of a procedure, each program that `eval` or `load` runs, and each request to exit with
the state in which it was made.

What is computed under watch is what is computed without (`Watched`). A request to exit is then
the last event and the outcome, from the state in which it was made with the frames of active
calls taken off, and no outcome asks to exit without one (`Accounts`). Calls of procedures, `eval`
and `load` are the places where this has to be shown (`Watched.inFrame`, `Watched.rescue`); all
else goes by `Congruence`.
-/
import ExprShell.Proofs.Eval.Carrying

namespace ExprShell

variable {σ α β : Type}

/-! ## Events -/

/-- What is written down of an evaluation. -/
inductive Event (σ : Type) where
  /-- A procedure was to be called. -/
  | called (name : String)
  /-- A program was to be run by `eval` or `load`. -/
  | ran (program : List Node)
  /-- The program asked to exit, in this state. -/
  | left (status : Nat) (s : State σ)

def Event.isExit : Event σ → Bool
  | .left .. => true
  | .called _ | .ran _ => false

/-- A state and the events so far. -/
def State.watched (s : State σ) (events : List (Event σ)) : State (σ × List (Event σ)) :=
  ⟨s.env, (s.host, events)⟩

/-- The host, with events that it passes on. -/
def Host.watched (host : Host σ) : Host (σ × List (Event σ)) where
  resolve a := host.resolve a.1
  pipeline commands input mode a :=
    let (done, next) := host.pipeline commands input mode a.1
    (done, next, a.2)
  locate a := host.locate a.1
  readFile a := host.readFile a.1
  print text a := (host.print text a.1).map (·, a.2)
  tell text a := (host.tell text a.1, a.2)
  warn text a := (host.warn text a.1, a.2)
  workingDirectory a := host.workingDirectory a.1
  changeDirectory path a := (host.changeDirectory path a.1).map (·, a.2)
  valueOf? a := host.valueOf? a.1
  setVariable name value a := (host.setVariable name value a.1, a.2)

/-- Writes an event down. -/
def Eval.note (e : Event σ) : Eval (σ × List (Event σ)) Unit :=
  modifyHost fun a => (a.1, a.2 ++ [e])

/-- Writes a request to exit down, with the state in which it is made. -/
def Eval.noteExit (status : Nat) : Eval (σ × List (Event σ)) Unit := fun s =>
  note (.left status ⟨s.env, s.host.1⟩) s

/-- Reentry that writes down what it is asked for. -/
def Reentry.watched (re : Reentry (σ × List (Event σ))) : Reentry (σ × List (Event σ)) where
  enter name bindings body := do
    Eval.note (.called name)
    re.enter name bindings body
  run program := do
    Eval.note (.ran program)
    re.run program
  leave status := do
    Eval.noteExit status
    re.leave status

namespace Setup

def watched (setup : Setup σ) : Setup (σ × List (Event σ)) where
  host := setup.host.watched
  settings := setup.settings
  tools := setup.tools
  budget := setup.budget

theorem watched_read (setup : Setup σ) (text : String) :
    setup.watched.read text = setup.read text :=
  rfl

/-- `Setup.withRoom` under watch. -/
def watchedRoom (setup : Setup σ) (run : Nat → List Node → Eval (σ × List (Event σ)) Node) :
    Nat → Reentry (σ × List (Event σ))
  | 0 => Reentry.watched
    { enter := fun _ _ _ => Eval.fail (.recursionLimit setup.settings.maxDepth)
      run := run 0 }
  | room + 1 => Reentry.watched
    { enter := fun name bindings body =>
        Eval.inFrame name bindings (Eval.execute setup.watched (watchedRoom setup run room) body)
      run := run (room + 1) }

/-- `Setup.nested` under watch. -/
def watchedNested (setup : Setup σ) : Nat → Nat → List Node → Eval (σ × List (Event σ)) Node
  | 0, _, _ => Eval.halt .exhausted
  | budget + 1, room, program =>
    Eval.execute setup.watched (setup.watchedRoom (watchedNested setup budget) room) program

/-- `Setup.reentry` under watch. -/
def watchedReentry (setup : Setup σ) (active : Nat) : Reentry (σ × List (Event σ)) :=
  setup.watchedRoom (watchedNested setup setup.budget) (setup.settings.maxDepth - active)

end Setup

/-! ## What the events account for -/

/-- The scopes after so many active calls have ended. -/
def Environment.unwound : Nat → Environment → Environment
  | 0, e => e
  | depth + 1, e => (e.unwound depth).popScope.popFrame

def State.unwound (depth : Nat) (s : State σ) : State σ :=
  { s with env := s.env.unwound depth }

/-- The events up to an outcome: no request to exit, and the outcome is none either, or one as the
last event, which is the outcome. -/
inductive Accounts : List (Event σ) → Except Halt α × State σ → Prop where
  | goesOn {events : List (Event σ)} {outcome : Except Halt α × State σ} :
    (∀ e ∈ events, e.isExit = false) → (∀ status, outcome.1 ≠ .error (.exit status)) →
      Accounts events outcome
  | leaves {before : List (Event σ)} {status : Nat} {s : State σ} (depth : Nat) :
    (∀ e ∈ before, e.isExit = false) → status ≤ 255 →
      Accounts (before ++ [.left status s]) (.error (.exit status), s.unwound depth)

namespace Accounts

variable {events earlier : List (Event σ)} {s : State σ}

/-- After a value no request to exit is among the events. -/
theorem of_ok {a : α} (h : Accounts events (.ok a, s)) : ∀ e ∈ events, e.isExit = false := by
  cases h with
  | goesOn hevents _ => exact hevents

theorem of_fault {f : Fault} (h : Accounts events ((.error (.fault f), s) : Except Halt α × _)) :
    ∀ e ∈ events, e.isExit = false := by
  cases h with
  | goesOn hevents _ => exact hevents

/-- A halt accounts for the same events whatever value it stands in for. -/
theorem halted {e : Halt} (h : Accounts events ((.error e, s) : Except Halt α × State σ)) :
    Accounts events ((.error e, s) : Except Halt β × State σ) := by
  cases h with
  | goesOn hevents hnot =>
    refine .goesOn hevents fun status heq => hnot status ?_
    cases heq
    rfl
  | leaves depth hbefore hstatus => exact .leaves depth hbefore hstatus

theorem append {outcome : Except Halt α × State σ} (hearlier : ∀ e ∈ earlier, e.isExit = false)
    (h : Accounts events outcome) : Accounts (earlier ++ events) outcome := by
  cases h with
  | goesOn hevents hnot => exact .goesOn (List.forall_mem_append.2 ⟨hearlier, hevents⟩) hnot
  | leaves depth hbefore hstatus =>
    rw [← List.append_assoc]
    exact .leaves depth (List.forall_mem_append.2 ⟨hearlier, hbefore⟩) hstatus

/-- The end of a call takes off its frame. -/
theorem popped {r : Except Halt α} (h : Accounts events (r, s)) :
    Accounts events (r, { s with env := s.env.popScope.popFrame }) := by
  cases h with
  | goesOn hevents hnot => exact .goesOn hevents hnot
  | leaves depth hbefore hstatus => exact .leaves (depth + 1) hbefore hstatus

end Accounts

namespace Eval

/-- The first computation is the second one under watch. -/
def Watched (x : Eval (σ × List (Event σ)) α) (x' : Eval σ α) : Prop :=
  ∀ s events, ∃ more, x (s.watched events) = ((x' s).1, (x' s).2.watched (events ++ more)) ∧
    Accounts more (x' s)

/-- The first computation is the second one, in which there is nothing to write down. -/
def Quiet (x : Eval (σ × List (Event σ)) α) (x' : Eval σ α) : Prop :=
  ∀ s events, x (s.watched events) = ((x' s).1, (x' s).2.watched events) ∧
    ∀ status, (x' s).1 ≠ .error (.exit status)

/-! ## Computations with nothing to write down -/

namespace Quiet

variable {x : Eval (σ × List (Event σ)) α} {x' : Eval σ α}

theorem watched (h : Quiet x x') : Watched x x' := by
  intro s events
  obtain ⟨hx, hnot⟩ := h s events
  refine ⟨[], ?_, .goesOn (List.forall_mem_nil _) hnot⟩
  rw [List.append_nil]
  exact hx

/-- What carries the events along. -/
theorem ofCarries (h : Carries x x') : Quiet x x' := by
  refine fun s events => ⟨h.same s events, fun status heq => ?_⟩
  obtain ⟨f, hf⟩ := h.faults s _ heq
  cases hf

theorem exhausted : Quiet (halt .exhausted : Eval (σ × List (Event σ)) α) (halt .exhausted) :=
  fun _ _ => ⟨rfl, fun _ h => by cases h⟩

theorem ask {f : State (σ × List (Event σ)) → Except Fault α} {f' : State σ → Except Fault α}
    (h : ∀ s events, f (s.watched events) = f' s) : Quiet (ask f) (ask f') :=
  ofCarries (.ask h)

theorem pipeline (setup : Setup σ) (commands : List Command) (input : Option String)
    (mode : OutputMode) :
    Quiet (setup.watched.pipeline commands input mode) (setup.pipeline commands input mode) := by
  intro s events
  refine ⟨pipeline_carrying setup (fun _ events => events) commands input mode s events,
    fun status heq => ?_⟩
  obtain ⟨f, hf⟩ := pipeline_faults setup commands input mode s heq
  cases hf

end Quiet

/-! ## Evaluation -/

namespace Watched

variable {x : Eval (σ × List (Event σ)) α} {x' : Eval σ α}

theorem bind {f : α → Eval (σ × List (Event σ)) β} {f' : α → Eval σ β} (hx : Watched x x')
    (hf : ∀ a, Watched (f a) (f' a)) : Watched (x >>= f) (x' >>= f') := by
  intro s events
  obtain ⟨more, hwatched, haccounts⟩ := hx s events
  cases h : x' s with
  | mk r t =>
    rw [h] at hwatched haccounts
    cases r with
    | ok a =>
      obtain ⟨later, hlater, houtcome⟩ := hf a t (events ++ more)
      refine ⟨more ++ later, ?_, ?_⟩
      · rw [bind_of_ok hwatched, bind_of_ok h, ← List.append_assoc]
        exact hlater
      · rw [bind_of_ok h]
        exact houtcome.append haccounts.of_ok
    | error e =>
      refine ⟨more, ?_, ?_⟩
      · rw [bind_of_error hwatched, bind_of_error h]
      · rw [bind_of_error h]
        exact haccounts.halted

/-- What may be mended is a fault, after which no request to exit was made. -/
theorem rescue {mend : Fault → Eval (σ × List (Event σ)) α} {mend' : Fault → Eval σ α}
    (hx : Watched x x') (hmend : ∀ f, Watched (mend f) (mend' f)) :
    Watched (rescue x mend) (rescue x' mend') := by
  intro s events
  obtain ⟨more, hwatched, haccounts⟩ := hx s events
  cases h : x' s with
  | mk r t =>
    rw [h] at hwatched haccounts
    unfold Eval.rescue
    rw [bind_of_ok (attempt_of_eq h), bind_of_ok (attempt_of_eq hwatched)]
    rcases r with (f | status | _ | _) | a
    · obtain ⟨later, hlater, houtcome⟩ := hmend f t (events ++ more)
      refine ⟨more ++ later, ?_, houtcome.append haccounts.of_fault⟩
      rw [← List.append_assoc]
      exact hlater
    all_goals exact ⟨more, rfl, haccounts⟩

theorem inFrame_of_eq {y : Eval σ α} {name : String} {bindings : Table Node} {s t : State σ}
    {r : Except Halt α}
    (h : y { s with env := (s.env.pushFrame name bindings).pushScope } = (r, t)) :
    Eval.inFrame name bindings y s = (r, { t with env := t.env.popScope.popFrame }) := by
  unfold Eval.inFrame
  rw [h]

theorem inFrame (name : String) (bindings : Table Node) (hx : Watched x x') :
    Watched (inFrame name bindings x) (inFrame name bindings x') := by
  intro s events
  obtain ⟨more, hwatched, haccounts⟩ :=
    hx { s with env := (s.env.pushFrame name bindings).pushScope } events
  refine ⟨more, ?_, haccounts.popped⟩
  rw [inFrame_of_eq (s := s.watched events) hwatched]
  rfl

theorem note {e : Event σ} (he : e.isExit = false) (hx : Watched x x') :
    Watched (Eval.note e >>= fun _ => x) x' := by
  intro s events
  obtain ⟨more, hwatched, haccounts⟩ := hx s (events ++ [e])
  refine ⟨[e] ++ more, ?_, haccounts.append (List.forall_mem_singleton.2 he)⟩
  rw [← List.append_assoc]
  exact hwatched

end Watched

/-- Watching, as a relation between all evaluation under watch and without. -/
def watching (setup : Setup σ) : Congruence setup.watched setup where
  rel x x' := Watched x x'
  pure a := (Quiet.ofCarries (.pure a)).watched
  bind := Watched.bind
  fail f := (Quiet.ofCarries (.fail f)).watched
  exhausted := Quiet.exhausted.watched
  rescue := Watched.rescue
  read := setup.watched_read
  lookup _ := (Quiet.ask fun _ _ => rfl).watched
  defined _ := (Quiet.ask fun _ _ => rfl).watched
  constant name hx := (Quiet.ofCarries (.checkConstant name)).watched.bind fun _ =>
    Watched.bind hx fun value => (Quiet.ofCarries (.setConstant name value)).watched
  setVariable name value := (Quiet.ofCarries (.setVariable name value)).watched
  bindAll _ := (Quiet.ofCarries (.modifyEnv _)).watched
  calleeOfName _ _ := (Quiet.ask fun _ _ => rfl).watched
  calleeOfNode _ _ := (Quiet.ask fun _ _ => rfl).watched
  programPath name := (Quiet.ofCarries (.programPath setup (fun _ events => events) name)).watched
  readFile path := (Quiet.ofCarries (.askHost (setup.host.readFile · path))).watched
  tool t args := (Quiet.ofCarries
    (.tool setup.host (fun _ events => events) setup.settings.searchPath t args)).watched
  pipeline commands input mode := (Quiet.pipeline setup commands input mode).watched

/-- A request to exit is written down where it is made. -/
theorem watched_leave {status : Nat} (h : status ≤ 255)
    {re : Reentry (σ × List (Event σ))} (hre : re.leave = fun status => halt (.exit status)) :
    Watched (re.watched.leave status) (halt (.exit status)) := by
  refine fun s events => ⟨[.left status s], ?_, .leaves 0 (List.forall_mem_nil _) h⟩
  unfold Reentry.watched
  rw [hre]
  rfl

theorem watchedRoom_reenters {setup : Setup σ}
    {run : Nat → List Node → Eval (σ × List (Event σ)) Node}
    {run' : Nat → List Node → Eval σ Node}
    (hrun : ∀ room program, Watched (run room program) (run' room program)) (room : Nat) :
    (watching setup).Reenters (setup.watchedRoom run room) (setup.withRoom run' room) := by
  induction room with
  | zero =>
    refine ⟨fun _ _ _ => ?_, fun program => (hrun 0 program).note rfl, fun h => ?_⟩
    · exact Watched.note rfl (Quiet.ofCarries (.fail _)).watched
    · exact watched_leave h rfl
  | succ room ih =>
    refine ⟨fun name bindings body => ?_, fun program => (hrun (room + 1) program).note rfl,
      fun h => watched_leave h rfl⟩
    exact Watched.note rfl (((watching setup).execute ih body).inFrame name bindings)

theorem watchedNested_watched (setup : Setup σ) (budget room : Nat) (program : List Node) :
    Watched (setup.watchedNested budget room program) (setup.nested budget room program) := by
  induction budget generalizing room program with
  | zero => exact (watching setup).exhausted
  | succ budget ih => exact (watching setup).execute (watchedRoom_reenters ih room) program

/-- **Under watch** procedures are called and programs run as they are without. -/
theorem watchedReentry_reenters (setup : Setup σ) (active : Nat) :
    (watching setup).Reenters (setup.watchedReentry active) (setup.reentry active) :=
  watchedRoom_reenters (watchedNested_watched setup setup.budget) _

end Eval

end ExprShell
