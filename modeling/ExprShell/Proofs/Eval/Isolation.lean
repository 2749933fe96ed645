/-
A procedure sees nothing of its callers. Two shells that agree on everything but the names and
bindings of their active frames call a procedure with the same outcome, hand the same pipelines
to the process service and end with the same variables, constants and procedures
(`Session.invoke_isolated`). Variables, constants and procedures agree if look-ups find the same.

Inside the call the two environments are twins: they share the innermost frame and all that lies
outside the frames, and may differ in the frames below (`Environment.Twin`). Whatever evaluation
looks up or writes is the same in twins and leaves twins, so being twins is a congruence of
evaluation (`isolation`); nested calls make twins with one more frame below.
-/
import ExprShell.Machine.Host
import ExprShell.Proofs.Environment.Sharing
import ExprShell.Proofs.Host.Alike

namespace ExprShell

variable {σ τ : Type}

/-! ## Twins -/

namespace Environment

/-- Active calls of the same procedure, with the same bindings. -/
structure SameFrame (frame frame' : Frame) : Prop where
  procedure : frame'.procedure = frame.procedure
  bindings : frame.bindings.Same frame'.bindings

/-- The environments share all but the frames below the innermost one. -/
structure Twin (callers callers' : List Frame) (e e' : Environment) : Prop where
  shared : Shared e e'
  frames : ∃ frame frame', e.frames = frame :: callers ∧ e'.frames = frame' :: callers' ∧
    SameFrame frame frame'

namespace Twin

variable {callers callers' : List Frame} {e e' : Environment}

theorem lookup (h : Twin callers callers' e e') (name : String) :
    e'.lookup name = e.lookup name := by
  obtain ⟨frame, frame', hf, hf', hframe⟩ := h.frames
  simp only [Environment.lookup, hf, hf', hframe.bindings name, h.shared.dynamic name,
    h.shared.constants name]

theorem current (h : Twin callers callers' e e') : e.current.Same e'.current := by
  obtain ⟨frame, frame', hf, hf', hframe⟩ := h.frames
  simp only [Environment.current, hf, hf']
  exact hframe.bindings

theorem setCurrent (h : Twin callers callers' e e') {t t' : Table Node} (ht : t.Same t') :
    Twin callers callers' (e.setCurrent t) (e'.setCurrent t') := by
  obtain ⟨frame, frame', hf, hf', hframe⟩ := h.frames
  simp only [Environment.setCurrent, hf, hf']
  exact ⟨{ h.shared with }, _, _, rfl, rfl, hframe.procedure, ht⟩

theorem defineProcedure (h : Twin callers callers' e e') (name : String) (p : Procedure) :
    Twin callers callers' (e.defineProcedure name p) (e'.defineProcedure name p) := by
  have hframes (e : Environment) : (e.defineProcedure name p).frames = e.frames := by
    obtain ⟨globals, scopes, heq⟩ := e.defineProcedure_eq name p
    rw [heq]
  refine ⟨h.shared.defineProcedure name p, ?_⟩
  rw [hframes, hframes]
  exact h.frames

/-- Without the frame they share, only the callers' frames differ. -/
theorem pop (h : Twin callers callers' e e') :
    e.popScope.popFrame.Shared e'.popScope.popFrame ∧
      e.popScope.popFrame.frames = callers ∧ e'.popScope.popFrame.frames = callers' := by
  obtain ⟨frame, frame', hf, hf', -⟩ := h.frames
  refine ⟨h.shared.pop, ?_, ?_⟩
  · simp only [popFrame, popScope, hf, List.tail_cons]
  · simp only [popFrame, popScope, hf', List.tail_cons]

/-- Twins are inside a procedure, the same one. -/
theorem constantCheck (h : Twin callers callers' e e') (name : String) :
    ∃ fault, Eval.constantCheck name e = .error fault ∧
      Eval.constantCheck name e' = .error fault := by
  obtain ⟨frame, frame', hf, hf', hframe⟩ := h.frames
  refine ⟨.runtime (.constantInside name frame.procedure), ?_, ?_⟩
  · simp [Eval.constantCheck, currentProcedure?, hf]
  · simp [Eval.constantCheck, currentProcedure?, hf', hframe.procedure]

end Twin

end Environment

/-- States with twin environments and related hosts. -/
structure Twins (R : σ → τ → Prop) (callers callers' : List Frame) (s : State σ)
    (s' : State τ) : Prop where
  env : s.env.Twin callers callers' s'.env
  host : R s.host s'.host

namespace Eval

variable {R : σ → τ → Prop} {callers callers' : List Frame} {α β : Type}

theorem askHost_apply (f : σ → α) (s : State σ) : askHost f s = (.ok (f s.host), s) := rfl

theorem changeHost_of_ok {change : σ → Except String σ} {s : State σ} {next : σ}
    (h : change s.host = .ok next) (fault : String → Fault) :
    Tool.changeHost change fault s = (.ok (.status 0), { s with host := next }) := by
  unfold Tool.changeHost
  rw [bind_of_ok (askHost_apply change s), h]
  rfl

theorem changeHost_of_error {change : σ → Except String σ} {s : State σ} {reason : String}
    (h : change s.host = .error reason) (fault : String → Fault) :
    Tool.changeHost change fault s = (.error (.fault (fault reason)), s) := by
  unfold Tool.changeHost
  rw [bind_of_ok (askHost_apply change s), h]
  rfl

/-- From twins the computations have the same outcome and go to twins. -/
def Isolated (R : σ → τ → Prop) (callers callers' : List Frame) (x : Eval σ α)
    (x' : Eval τ α) : Prop :=
  ∀ s s', Twins R callers callers' s s' →
    (x' s').1 = (x s).1 ∧ Twins R callers callers' (x s).2 (x' s').2

namespace Isolated

theorem pure (a : α) : Isolated R callers callers' (pure a) (pure a) :=
  fun _ _ h => ⟨rfl, h⟩

theorem halt (e : Halt) : Isolated R callers callers' (halt e : Eval σ α) (halt e) :=
  fun _ _ h => ⟨rfl, h⟩

theorem bind {x : Eval σ α} {x' : Eval τ α} {f : α → Eval σ β} {f' : α → Eval τ β}
    (hx : Isolated R callers callers' x x')
    (hf : ∀ a, Isolated R callers callers' (f a) (f' a)) :
    Isolated R callers callers' (x >>= f) (x' >>= f') := by
  intro s s' h
  have hs := hx s s' h
  cases hr : x s with
  | mk r t =>
    cases hr' : x' s' with
    | mk r' t' =>
      rw [hr, hr'] at hs
      obtain ⟨heq, ht⟩ := hs
      change r' = r at heq
      subst heq
      cases r' with
      | ok a =>
        rw [bind_of_ok hr, bind_of_ok hr']
        exact hf a t t' ht
      | error e =>
        rw [bind_of_error hr, bind_of_error hr']
        exact ⟨rfl, ht⟩

theorem attempt {x : Eval σ α} {x' : Eval τ α} (hx : Isolated R callers callers' x x') :
    Isolated R callers callers' (attempt x) (attempt x') := by
  intro s s' h
  obtain ⟨hr, ht⟩ := hx s s' h
  exact ⟨congrArg Except.ok hr, ht⟩

theorem rescue {x : Eval σ α} {x' : Eval τ α} {mend : Fault → Eval σ α}
    {mend' : Fault → Eval τ α} (hx : Isolated R callers callers' x x')
    (hmend : ∀ f, Isolated R callers callers' (mend f) (mend' f)) :
    Isolated R callers callers' (rescue x mend) (rescue x' mend') := by
  refine bind (attempt hx) fun outcome => ?_
  split
  · exact pure _
  · exact hmend _
  · exact halt _

/-- A check that gives the same in twins. -/
theorem ask {f : State σ → Except Fault α} {f' : State τ → Except Fault α}
    (hf : ∀ s s', Twins R callers callers' s s' → f' s' = f s) :
    Isolated R callers callers' (ask f) (ask f') := by
  intro s s' h
  refine ⟨?_, ?_⟩
  · unfold Eval.ask
    rw [hf s s' h]
    cases f s with
    | ok a => rfl
    | error e => rfl
  · rw [ask_state, ask_state]
    exact h

theorem askHost {f : σ → α} {f' : τ → α} (hf : ∀ a b, R a b → f' b = f a) :
    Isolated R callers callers' (askHost f) (askHost f') :=
  fun s s' h => ⟨congrArg Except.ok (hf s.host s'.host h.host), h⟩

theorem modifyEnv {f : Environment → Environment}
    (hf : ∀ e e' : Environment, e.Twin callers callers' e' → (f e).Twin callers callers' (f e')) :
    Isolated R callers callers' (modifyEnv f) (modifyEnv f) :=
  fun s s' h => ⟨rfl, hf s.env s'.env h.env, h.host⟩

theorem modifyHost {f : σ → σ} {f' : τ → τ} (hf : ∀ a b, R a b → R (f a) (f' b)) :
    Isolated R callers callers' (modifyHost f) (modifyHost f') :=
  fun s s' h => ⟨rfl, h.env, hf s.host s'.host h.host⟩

theorem setVariable (name : String) (value : Node) :
    Isolated R callers callers' (setVariable name value) (setVariable name value) := by
  unfold Eval.setVariable
  split
  · exact bind (modifyEnv fun e e' h => h.defineProcedure name _) fun _ => pure _
  · refine bind (modifyEnv fun e e' h => ?_) fun _ => pure _
    exact h.setCurrent (h.current.insert name value)

theorem unbind (name : String) :
    Isolated R callers callers' (Tool.unbind name) (Tool.unbind name) := by
  intro s s' h
  refine ⟨?_, h.env.setCurrent (h.env.current.erase name), h.host⟩
  change Except.ok (Node.ofBool (s'.env.current.contains name)) = _
  rw [h.env.current.contains]
  rfl

theorem listNames : Isolated R callers callers' Tool.listNames Tool.listNames := by
  intro s s' h
  refine ⟨?_, h⟩
  change Except.ok (Node.data (s'.env.visibleNames.map .ofString)) = _
  rw [Environment.visibleNames_congr h.env.lookup]
  rfl

theorem constant {x : Eval σ Node} {x' : Eval τ Node} (name : String) :
    Isolated R callers callers'
      (checkConstant name >>= fun _ => x >>= fun value => setConstant name value)
      (checkConstant name >>= fun _ => x' >>= fun value => setConstant name value) := by
  intro s s' h
  obtain ⟨fault, hs, hs'⟩ := h.env.constantCheck name
  rw [checkConstant_bind_of_error hs, checkConstant_bind_of_error hs']
  exact ⟨rfl, h⟩

/-- A call from states that share all but their frames: inside, the callers' frames are what
twins may differ in, and popping the frame of the call uncovers them again. -/
theorem inFrame_at {x : Eval σ α} {x' : Eval τ α} (name : String) (bindings : Table Node)
    {s : State σ} {s' : State τ} (hx : Isolated R s.env.frames s'.env.frames x x')
    (henv : s.env.Shared s'.env) (hhost : R s.host s'.host) :
    (inFrame name bindings x' s').1 = (inFrame name bindings x s).1 ∧
      ((inFrame name bindings x s).2.env.Shared (inFrame name bindings x' s').2.env ∧
        (inFrame name bindings x s).2.env.frames = s.env.frames ∧
        (inFrame name bindings x' s').2.env.frames = s'.env.frames) ∧
      R (inFrame name bindings x s).2.host (inFrame name bindings x' s').2.host := by
  have htwins : Twins R s.env.frames s'.env.frames
      { s with env := (s.env.pushFrame name bindings).pushScope }
      { s' with env := (s'.env.pushFrame name bindings).pushScope } :=
    ⟨⟨henv.push name bindings, _, _, rfl, rfl, rfl, .refl bindings⟩, hhost⟩
  obtain ⟨hr, htwin, hhost'⟩ := hx _ _ htwins
  exact ⟨hr, htwin.pop, hhost'⟩

theorem inFrame {x : Eval σ α} {x' : Eval τ α} (name : String) (bindings : Table Node)
    (hx : ∀ callers callers', Isolated R callers callers' x x') :
    Isolated R callers callers' (inFrame name bindings x) (inFrame name bindings x') := by
  intro s s' h
  obtain ⟨hr, ⟨hshared, hframes, hframes'⟩, hhost⟩ :=
    inFrame_at name bindings (hx _ _) h.env.shared h.host
  refine ⟨hr, ⟨hshared, ?_⟩, hhost⟩
  rw [hframes, hframes']
  exact h.env.frames

/-! ## What depends on the host -/

variable {host : Host σ} {host' : Host τ}

theorem changeHost {change : σ → Except String σ} {change' : τ → Except String τ}
    (hchange : ∀ a b, R a b → Host.SameMove R (change a) (change' b)) (fault : String → Fault) :
    Isolated R callers callers' (Tool.changeHost change fault) (Tool.changeHost change' fault) := by
  intro s s' h
  have hmove := hchange s.host s'.host h.host
  cases hs : change s.host with
  | ok next =>
    cases hs' : change' s'.host with
    | ok next' =>
      rw [hs, hs'] at hmove
      rw [changeHost_of_ok hs, changeHost_of_ok hs']
      exact ⟨rfl, h.env, hmove⟩
    | error reason =>
      rw [hs, hs'] at hmove
      exact hmove.elim
  | error reason =>
    cases hs' : change' s'.host with
    | ok next' =>
      rw [hs, hs'] at hmove
      exact hmove.elim
    | error reason' =>
      rw [hs, hs'] at hmove
      obtain rfl : reason = reason' := hmove
      rw [changeHost_of_error hs, changeHost_of_error hs']
      exact ⟨rfl, h⟩

theorem enterDirectory (alike : Host.Alike R host host') (path : String) :
    Isolated R callers callers' (Tool.enterDirectory host path)
      (Tool.enterDirectory host' path) :=
  changeHost (fun _ _ h => alike.changeDirectory h path) _

theorem write (alike : Host.Alike R host host') (t : Tool) (text : String) :
    Isolated R callers callers' (Tool.write host t text) (Tool.write host' t text) :=
  changeHost (fun _ _ h => alike.print h text) _

theorem changeDirectory (alike : Host.Alike R host host') (args : List Node) :
    Isolated R callers callers' (Tool.changeDirectory host args)
      (Tool.changeDirectory host' args) := by
  unfold Tool.changeDirectory
  split
  · refine bind (askHost fun a b h => alike.valueOf? h _) fun home => ?_
    cases home with
    | some path => exact enterDirectory alike path
    | none => exact halt _
  · exact enterDirectory alike _
  · exact halt _

theorem ofExcept (r : Except Fault α) :
    Isolated R callers callers' (ofExcept r : Eval σ α) (ofExcept r) :=
  ask fun _ _ _ => rfl

theorem run (alike : Host.Alike R host host') (path : List String) (t : Tool)
    (args : List Node) :
    Isolated R callers callers' (t.run host path args) (t.run host' path args) := by
  unfold Tool.run
  split
  · exact write alike _ _
  · exact write alike _ _
  · exact changeDirectory alike _
  · refine bind (askHost fun a b h => alike.workingDirectory h) fun found => ?_
    cases found with
    | ok path => exact pure _
    | error reason => exact halt _
  · refine bind (askHost fun a b h => alike.valueOf? h _) fun found => ?_
    cases found with
    | some value => exact pure _
    | none => exact pure _
  · unfold Tool.writeVariable
    split
    · exact halt _
    · split
      · exact halt _
      · exact bind (modifyHost fun a b h => alike.setVariable h _ _) fun _ => pure _
  · refine bind (askHost fun a b h => alike.locate h _ _) fun found => ?_
    cases found with
    | some value => exact pure _
    | none => exact pure _
  · exact unbind _
  · exact listNames
  · split
    · exact ofExcept _
    · exact halt _

theorem tool (alike : Host.Alike R host host') (path : List String) (t : Tool)
    (args : List Node) :
    Isolated R callers callers' (t.call host path args) (t.call host' path args) := by
  unfold Tool.call
  split
  · split
    · exact run alike path t args
    · exact halt _
  · exact run alike path t args

end Isolated

end Eval

/-! ## Shells -/

/-- The shell on a recording host. -/
def Setup.recording (setup : Setup σ) : Setup (σ × List Request) where
  host := setup.host.recording
  settings := setup.settings
  tools := setup.tools
  budget := setup.budget

/-- Shells with the same settings and tools, and hosts that answer alike. -/
structure Setup.Alike (R : σ → τ → Prop) (setup : Setup σ) (setup' : Setup τ) : Prop where
  host : Host.Alike R setup.host setup'.host
  settings : setup'.settings = setup.settings
  tools : setup'.tools = setup.tools
  budget : setup'.budget = setup.budget

namespace Setup.Alike

variable {R : σ → τ → Prop} {callers callers' : List Frame} {setup : Setup σ} {setup' : Setup τ}
  {s : State σ} {s' : State τ}

theorem refl (setup : Setup σ) : Setup.Alike Eq setup setup :=
  ⟨Host.Alike.refl setup.host, rfl, rfl, rfl⟩

theorem ofRecording (setup : Setup σ) :
    Setup.Alike (fun (a : σ × List Request) b => b = a.1) setup.recording setup :=
  ⟨Host.Alike.ofRecording setup.host, rfl, rfl, rfl⟩

theorem recording (alike : Setup.Alike R setup setup') :
    Setup.Alike (fun (a : σ × List Request) (b : τ × List Request) => R a.1 b.1 ∧ b.2 = a.2)
      setup.recording setup'.recording :=
  ⟨alike.host.recording, alike.settings, alike.tools, alike.budget⟩

theorem program? (alike : Setup.Alike R setup setup') {a : σ} {b : τ} (h : R a b)
    (name : String) : setup'.program? b name = setup.program? a name := by
  unfold Setup.program?
  rw [alike.settings]
  exact alike.host.resolve h _ _

theorem ofCallable? (alike : Setup.Alike R setup setup') (h : Twins R callers callers' s s')
    (name : String) :
    Callee.ofCallable? setup' s'.env name = Callee.ofCallable? setup s.env name := by
  unfold Callee.ofCallable?
  rw [h.env.shared.procedure?, alike.tools]

theorem ofProgram (alike : Setup.Alike R setup setup') (h : Twins R callers callers' s s')
    (name : String) : Callee.ofProgram setup' s' name = Callee.ofProgram setup s name := by
  unfold Callee.ofProgram
  rw [alike.program? h.host]

theorem ofName (alike : Setup.Alike R setup setup') (h : Twins R callers callers' s s')
    (name : String) (bare : Bool) :
    Callee.ofName setup' s' name bare = Callee.ofName setup s name bare := by
  have hcallable : Callee.ofCallable? setup' s'.env = Callee.ofCallable? setup s.env :=
    funext fun name => alike.ofCallable? h name
  have hbound (bound : Node) :
      Callee.ofBound setup' s' name bound bare = Callee.ofBound setup s name bound bare := by
    unfold Callee.ofBound
    rw [hcallable, alike.program? h.host, alike.ofProgram h]
  unfold Callee.ofName
  rw [hcallable, h.env.lookup, alike.ofProgram h]
  simp only [hbound]

theorem ofNode (alike : Setup.Alike R setup setup') (h : Twins R callers callers' s s')
    (f : Node) (bare : Bool) :
    Callee.ofNode setup' s' f bare = Callee.ofNode setup s f bare := by
  unfold Callee.ofNode
  simp only [alike.ofName h]

theorem isDefined (alike : Setup.Alike R setup setup') (h : Twins R callers callers' s s')
    (name : String) : setup'.isDefined s'.env name = setup.isDefined s.env name := by
  unfold Setup.isDefined Environment.hasProcedure Environment.has
  rw [alike.tools, h.env.shared.procedure?, h.env.lookup]

end Setup.Alike

namespace Eval

variable {R : σ → τ → Prop} {setup : Setup σ} {setup' : Setup τ}

theorem Isolated.programPath {callers callers' : List Frame}
    (alike : Setup.Alike R setup setup') (name : String) :
    Isolated R callers callers' (programPath setup name) (programPath setup' name) := by
  intro s s' h
  unfold Eval.programPath
  rw [alike.program? h.host]
  cases setup.program? s.host name with
  | some path => exact ⟨rfl, h⟩
  | none => exact ⟨rfl, h⟩

theorem Isolated.pipeline {callers callers' : List Frame}
    (alike : Setup.Alike R setup setup') (commands : List Command) (input : Option String)
    (mode : OutputMode) :
    Isolated R callers callers' (setup.pipeline commands input mode)
      (setup'.pipeline commands input mode) := by
  intro s s' h
  have hdone := alike.host.completed h.host commands input mode
  have hnext := alike.host.pipeline h.host commands input mode
  unfold Setup.pipeline
  cases hp : setup.host.pipeline commands input mode s.host with
  | mk done next =>
    cases hp' : setup'.host.pipeline commands input mode s'.host with
    | mk done' next' =>
      rw [hp, hp'] at hdone hnext
      change done' = done at hdone
      subst hdone
      cases done' with
      | ok done => exact ⟨rfl, h.env, hnext⟩
      | error fault => exact ⟨rfl, h.env, hnext⟩

/-- Evaluation in twins, as a relation for each two stacks of callers. -/
def isolation (alike : Setup.Alike R setup setup') (callers : List Frame × List Frame) :
    Congruence setup setup' where
  rel x x' := Isolated R callers.1 callers.2 x x'
  pure := Isolated.pure
  bind := Isolated.bind
  fail f := Isolated.halt (.fault f)
  exhausted := Isolated.halt .exhausted
  rescue := Isolated.rescue
  read source := by unfold Setup.read; rw [alike.settings]
  lookup name := Isolated.ask fun _ _ h => congrArg Except.ok (h.env.lookup name)
  defined name := Isolated.ask fun _ _ h => congrArg Except.ok (alike.isDefined h name)
  constant name _ := Isolated.constant name
  setVariable := Isolated.setVariable
  bindAll captures :=
    Isolated.modifyEnv fun _ _ h => h.setCurrent (h.current.insertAll captures)
  calleeOfName name bare := Isolated.ask fun _ _ h => alike.ofName h name bare
  calleeOfNode f bare := Isolated.ask fun _ _ h => alike.ofNode h f bare
  programPath name := Isolated.programPath alike name
  readFile path := Isolated.askHost fun _ _ h => alike.host.readFile h path
  tool t args := by
    rw [alike.settings]
    exact Isolated.tool alike.host _ t args
  pipeline := Isolated.pipeline alike

theorem isolation_frames (alike : Setup.Alike R setup setup') :
    Congruence.Frames (isolation alike) where
  inFrame _ name bindings _ _ hx :=
    Isolated.inFrame name bindings fun callers callers' => hx (callers, callers')
  exit _ status := Isolated.halt (.exit status)

end Eval

namespace Session

variable {R : σ → τ → Prop} {setup : Setup σ} {setup' : Setup τ}

/-- A call from states that share all but their frames. -/
theorem invoke_shared (alike : Setup.Alike R setup setup') (name : String) (p : Procedure)
    (args : List Node) (s : State σ) (s' : State τ) (henv : s.env.Shared s'.env)
    (hhost : R s.host s'.host) (hdepth : s'.env.frameDepth = s.env.frameDepth) :
    (invoke setup' name p args s').1 = (invoke setup name p args s).1 ∧
      R (invoke setup name p args s).2.host (invoke setup' name p args s').2.host := by
  have hmax : setup'.settings.maxDepth = setup.settings.maxDepth := by rw [alike.settings]
  have hre := Eval.Congruence.reentry (Eval.isolation_frames alike) hmax alike.budget
    (s.env.frameDepth + 1) (s.env.frames, s'.env.frames)
  unfold invoke Reentry.invoke
  rw [hdepth]
  split
  · unfold Setup.reentry at hre ⊢
    rw [Eval.withRoom_enter, Eval.withRoom_enter, hmax]
    split
    · have hbody := (Eval.isolation alike _).execute hre p.body
      rw [hmax] at hbody
      obtain ⟨hr, -, hh⟩ := Eval.Isolated.inFrame_at name
        (Table.insertAll [] (p.params.zip args)) hbody henv hhost
      exact ⟨hr, hh⟩
    · exact ⟨rfl, hhost⟩
  · exact ⟨rfl, hhost⟩

/-- A call of a procedure on the host with an empty record. -/
def recorded (setup : Setup σ) (name : String) (p : Procedure) (args : List Node) (s : State σ) :
    Except Halt Node × State (σ × List Request) :=
  invoke setup.recording name p args ⟨s.env, (s.host, [])⟩

/-- The pipelines that a call of a procedure hands to the process service, in order. -/
def requests (setup : Setup σ) (name : String) (p : Procedure) (args : List Node)
    (s : State σ) : List Request :=
  (recorded setup name p args s).2.host.2.reverse

/-- The record is one of the call itself: a call on the host alone goes the same way. -/
structure IsRecorded (setup : Setup σ) (name : String) (p : Procedure) (args : List Node)
    (s : State σ) : Prop where
  outcome : (invoke setup name p args s).1 = (recorded setup name p args s).1
  host : (invoke setup name p args s).2.host = (recorded setup name p args s).2.host.1
  env : (invoke setup name p args s).2.env = (recorded setup name p args s).2.env

theorem invoke_recording (setup : Setup σ) (name : String) (p : Procedure) (args : List Node)
    (s : State σ) : IsRecorded setup name p args s := by
  obtain ⟨houtcome, hhost⟩ := invoke_shared (Setup.Alike.ofRecording setup) name p args
    ⟨s.env, (s.host, [])⟩ s (.refl s.env) rfl rfl
  refine ⟨houtcome, hhost, ?_⟩
  rw [recorded, invoke_env, invoke_env]

/-- **Nothing that callers bound influences a call.** -/
theorem invoke_isolated (alike : Setup.Alike R setup setup') (name : String) (p : Procedure)
    (args : List Node) (s : State σ) (s' : State τ) (hhost : R s.host s'.host)
    (hconstants : s.env.constants.Same s'.env.constants)
    (hdynamic : s.env.dynamic.Same s'.env.dynamic)
    (hscopes : List.Forall₂ Table.Same s.env.procedureScopes s'.env.procedureScopes)
    (hdepth : s'.env.frameDepth = s.env.frameDepth) :
    (invoke setup' name p args s').1 = (invoke setup name p args s).1 ∧
      requests setup' name p args s' = requests setup name p args s ∧
      (IsRecorded setup name p args s ∧ IsRecorded setup' name p args s') ∧
      ((invoke setup name p args s).2.env = s.env ∧
        (invoke setup' name p args s').2.env = s'.env) ∧
      (invoke setup name p args s).2.env.constants.Same
        (invoke setup' name p args s').2.env.constants ∧
      (invoke setup name p args s).2.env.dynamic.Same
        (invoke setup' name p args s').2.env.dynamic ∧
      List.Forall₂ Table.Same (invoke setup name p args s).2.env.procedureScopes
        (invoke setup' name p args s').2.env.procedureScopes ∧
      R (invoke setup name p args s).2.host (invoke setup' name p args s').2.host := by
  have henv := Environment.Shared.ofScopes hconstants hdynamic hscopes
  obtain ⟨hr, hh⟩ := invoke_shared alike name p args s s' henv hhost hdepth
  have hrec := invoke_shared alike.recording name p args ⟨s.env, (s.host, [])⟩
    ⟨s'.env, (s'.host, [])⟩ henv ⟨hhost, rfl⟩ hdepth
  refine ⟨hr, congrArg List.reverse hrec.2.2,
    ⟨invoke_recording setup name p args s, invoke_recording setup' name p args s'⟩, ?_⟩
  rw [invoke_env, invoke_env]
  exact ⟨⟨rfl, rfl⟩, hconstants, hdynamic, hscopes, hh⟩

/-- A state inside a call, on a machine that has the program `ls`, with the entries of all tables
arranged in some way. -/
def insideCall (frame : Frame) (arrange : {α : Type} → Table α → Table α) : State Machine where
  env :=
    { constants := arrange [("c", .ofString "1"), ("d", .ofString "2")]
      dynamic := arrange [("v", .ofString "3"), ("w", .ofString "4")]
      frames := [frame]
      globals := arrange [("f", ⟨[], []⟩), ("g", ⟨[], []⟩)]
      scopes := [arrange [("h", ⟨[], []⟩), ("k", ⟨[], []⟩)]] }
  host := { service := .rehearsed { directory := "/bin", programs := ["ls"], replies := [] } }

/-- A procedure that lists `x`, a variable and a constant, called from where `x` is bound and from
where it is not, with the same constants, variables and procedures in another order. -/
theorem invoke_isolated_ls :
    let setup : Setup Machine := { host := Machine.host }
    let p : Procedure :=
      ⟨["a"], [.call [.operator {} "ls", .identifier {} "x", .identifier {} "a",
        .identifier {} "v", .identifier {} "c"]]⟩
    let s := insideCall ⟨"f", [("x", .ofString "hidden")]⟩ fun t => t
    let s' := insideCall ⟨"g", []⟩ fun t => t.reverse
    s.env.lookup "x" = some (.ofString "hidden") ∧ s'.env.lookup "x" = none ∧
      (invoke setup "list" p [.ofString "b"] s').1 = (invoke setup "list" p [.ofString "b"] s).1 ∧
      requests setup "list" p [.ofString "b"] s' = requests setup "list" p [.ofString "b"] s := by
  intro setup p s s'
  have hscopes : List.Forall₂ Table.Same s.env.procedureScopes s'.env.procedureScopes :=
    .cons (.swap (by decide) []) (.cons (.swap (by decide) []) .nil)
  have h := invoke_isolated (Setup.Alike.refl setup) "list" p [.ofString "b"] s s' rfl
    (.swap (by decide) []) (.swap (by decide) []) hscopes rfl
  exact ⟨rfl, rfl, h.1, h.2.1⟩

end Session

end ExprShell
