/-
Hosts that answer alike, and hosts that keep a record. Two hosts answer alike along a relation
between their states when from related states they give the same answers and go to related
states. `Host.recording` is a host together with a list of the pipelines it was asked for; it
answers as the host does (`Host.Alike.ofRecording`), and recording hosts of hosts that answer
alike have the same record (`Host.Alike.recording`).
-/
import ExprShell.Host.Basic
import ExprShell.Host.Rehearsal

namespace ExprShell.Host

variable {σ τ : Type}

/-- The outcomes of a change that may be refused agree. -/
def SameMove (R : σ → τ → Prop) : Except String σ → Except String τ → Prop
  | .ok a, .ok b => R a b
  | .error reason, .error reason' => reason = reason'
  | _, _ => False

namespace SameMove

theorem refl (r : Except String σ) : SameMove Eq r r := by
  cases r with
  | ok next => exact rfl
  | error reason => exact rfl

/-- A change with a load that it leaves alone is the change. -/
theorem ofMap {ω : Type} (r : Except String σ) (load : ω) :
    SameMove (fun (a : σ × ω) b => b = a.1) (r.map (·, load)) r := by
  cases r with
  | ok next => exact rfl
  | error reason => exact rfl

theorem map {ω : Type} {R : σ → τ → Prop} {r : Except String σ} {r' : Except String τ}
    (h : SameMove R r r') {load load' : ω} (hload : load' = load) :
    SameMove (fun (a : σ × ω) (b : τ × ω) => R a.1 b.1 ∧ b.2 = a.2) (r.map (·, load))
      (r'.map (·, load')) := by
  cases r with
  | ok next =>
    cases r' with
    | ok next' => exact ⟨h, hload⟩
    | error reason => exact h.elim
  | error reason =>
    cases r' with
    | ok next' => exact h.elim
    | error reason' => exact h

end SameMove

/-- From related states both hosts give the same answers and go to related states. -/
structure Alike (R : σ → τ → Prop) (host : Host σ) (host' : Host τ) : Prop where
  resolve {a b} (h : R a b) (path : List String) (name : String) :
    host'.resolve b path name = host.resolve a path name
  locate {a b} (h : R a b) (path : List String) (name : String) :
    host'.locate b path name = host.locate a path name
  readFile {a b} (h : R a b) (path : String) : host'.readFile b path = host.readFile a path
  workingDirectory {a b} (h : R a b) : host'.workingDirectory b = host.workingDirectory a
  valueOf? {a b} (h : R a b) (name : String) : host'.valueOf? b name = host.valueOf? a name
  changeDirectory {a b} (h : R a b) (path : String) :
    SameMove R (host.changeDirectory path a) (host'.changeDirectory path b)
  print {a b} (h : R a b) (text : String) :
    SameMove R (host.print text a) (host'.print text b)
  setVariable {a b} (h : R a b) (name value : String) :
    R (host.setVariable name value a) (host'.setVariable name value b)
  completed {a b} (h : R a b) (commands : List Command) (input : Option String)
    (mode : OutputMode) :
    (host'.pipeline commands input mode b).1 = (host.pipeline commands input mode a).1
  pipeline {a b} (h : R a b) (commands : List Command) (input : Option String)
    (mode : OutputMode) :
    R (host.pipeline commands input mode a).2 (host'.pipeline commands input mode b).2

/-- A host answers like itself. -/
theorem Alike.refl (host : Host σ) : Alike Eq host host where
  resolve h _ _ := by rw [h]
  locate h _ _ := by rw [h]
  readFile h _ := by rw [h]
  workingDirectory h := by rw [h]
  valueOf? h _ := by rw [h]
  changeDirectory h path := by rw [h]; exact .refl _
  print h text := by rw [h]; exact .refl _
  setVariable h _ _ := by rw [h]
  completed h _ _ _ := by rw [h]
  pipeline h _ _ _ := by rw [h]

/-- The host with a record of the pipelines it was asked for, the latest first. -/
def recording (host : Host σ) : Host (σ × List Request) where
  resolve a := host.resolve a.1
  pipeline commands input mode a :=
    let (done, next) := host.pipeline commands input mode a.1
    (done, next, ⟨commands, input, mode⟩ :: a.2)
  locate a := host.locate a.1
  readFile a := host.readFile a.1
  print text a := (host.print text a.1).map (·, a.2)
  tell text a := (host.tell text a.1, a.2)
  warn text a := (host.warn text a.1, a.2)
  workingDirectory a := host.workingDirectory a.1
  changeDirectory path a := (host.changeDirectory path a.1).map (·, a.2)
  valueOf? a := host.valueOf? a.1
  setVariable name value a := (host.setVariable name value a.1, a.2)

/-- A recording host answers as the host does. -/
theorem Alike.ofRecording (host : Host σ) :
    Alike (fun (a : σ × List Request) b => b = a.1) host.recording host where
  resolve h _ _ := by rw [h]; rfl
  locate h _ _ := by rw [h]; rfl
  readFile h _ := by rw [h]; rfl
  workingDirectory h := by rw [h]; rfl
  valueOf? h _ := by rw [h]; rfl
  changeDirectory h path := by rw [h]; exact .ofMap _ _
  print h text := by rw [h]; exact .ofMap _ _
  setVariable h _ _ := by rw [h]; rfl
  completed h _ _ _ := by rw [h]; rfl
  pipeline h _ _ _ := by rw [h]; rfl

/-- Recording hosts of hosts that answer alike have the same record. -/
theorem Alike.recording {R : σ → τ → Prop} {host : Host σ} {host' : Host τ}
    (alike : Alike R host host') :
    Alike (fun (a : σ × List Request) (b : τ × List Request) => R a.1 b.1 ∧ b.2 = a.2)
      host.recording host'.recording where
  resolve h := alike.resolve h.1
  locate h := alike.locate h.1
  readFile h := alike.readFile h.1
  workingDirectory h := alike.workingDirectory h.1
  valueOf? h := alike.valueOf? h.1
  changeDirectory h path := (alike.changeDirectory h.1 path).map h.2
  print h text := (alike.print h.1 text).map h.2
  setVariable h name value := ⟨alike.setVariable h.1 name value, h.2⟩
  completed h := alike.completed h.1
  pipeline {a b} h commands input mode := by
    refine ⟨alike.pipeline h.1 commands input mode, ?_⟩
    change ⟨commands, input, mode⟩ :: b.2 = ⟨commands, input, mode⟩ :: a.2
    rw [h.2]

end ExprShell.Host
