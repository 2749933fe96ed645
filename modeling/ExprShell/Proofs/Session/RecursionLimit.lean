/-
Raising the limit on nested calls is safe (`Session.limit_raised`). While an evaluation runs it is
marked on its host (`Setup.marked`) whenever a frame is pushed or popped, with the number of frames
then active, whenever a call is refused for want of room, and whenever a pipeline is asked for.

With marks an evaluation goes the same way as without (`Marked`). The number of frames stays in the
limit, and as long as no call is refused the evaluation is, mark for mark, the one under any higher
limit (`Steady`); the limits of both are spent in step, frame by frame (`markedRoom_steady`).
-/
import ExprShell.Proofs.Eval.Carrying
import ExprShell.Proofs.Session.Exit

namespace ExprShell

variable {σ α β : Type}

/-! ## Marks -/

/-- What is marked of an evaluation. -/
inductive Mark where
  /-- So many frames are active, now that one was pushed or popped. -/
  | frames (count : Nat)
  /-- A call found no room for its frame. -/
  | refused
  /-- A pipeline was asked for. -/
  | asked (request : Request)

def Mark.request? : Mark → Option Request
  | .asked request => some request
  | .frames _ | .refused => none

namespace State

def marked (m : Mark) (s : State (σ × List Mark)) : State (σ × List Mark) :=
  { s with host := (s.host.1, s.host.2 ++ [m]) }

/-- Marks the number of frames. -/
def counted (s : State (σ × List Mark)) : State (σ × List Mark) :=
  s.marked (.frames s.env.frameDepth)

end State

namespace Eval

/-- Refuses a call for want of room. -/
def refuse (f : Fault) : Eval (σ × List Mark) α :=
  fun s => fail f (s.marked .refused)

/-- A computation in a frame and a scope of its own, with the frames counted before and after. -/
def inCountedFrame (name : String) (bindings : Table Node) (x : Eval (σ × List Mark) α) :
    Eval (σ × List Mark) α := fun s =>
  match inFrame name bindings (fun s => x s.counted) s with
  | (r, t) => (r, t.counted)

end Eval

namespace Setup

/-- The same shell with another limit on nested calls. -/
def withLimit (setup : Setup σ) (limit : Nat) : Setup σ :=
  { setup with settings := { setup.settings with maxDepth := limit } }

/-- The shell on a host that carries marks. -/
def marked (setup : Setup σ) : Setup (σ × List Mark) :=
  setup.carrying fun request marks => marks ++ [.asked request]

theorem marked_read (setup : Setup σ) (text : String) :
    setup.marked.read text = setup.read text :=
  rfl

theorem withLimit_read (setup : Setup σ) (limit : Nat) (text : String) :
    (setup.withLimit limit).marked.read text = setup.marked.read text :=
  rfl

/-- `Setup.withRoom` with marks. -/
def markedRoom (setup : Setup σ) (run : Nat → List Node → Eval (σ × List Mark) Node) :
    Nat → Reentry (σ × List Mark)
  | 0 =>
    { enter := fun _ _ _ => Eval.refuse (.recursionLimit setup.settings.maxDepth)
      run := run 0 }
  | room + 1 =>
    { enter := fun name bindings body =>
        Eval.inCountedFrame name bindings
          (Eval.execute setup.marked (markedRoom setup run room) body)
      run := run (room + 1) }

/-- `Setup.nested` with marks. -/
def markedNested (setup : Setup σ) : Nat → Nat → List Node → Eval (σ × List Mark) Node
  | 0, _, _ => Eval.halt .exhausted
  | budget + 1, room, program =>
    Eval.execute setup.marked (setup.markedRoom (markedNested setup budget) room) program

/-- `Setup.reentry` with marks. -/
def markedReentry (setup : Setup σ) (active : Nat) : Reentry (σ × List Mark) :=
  setup.markedRoom (markedNested setup setup.budget) (setup.settings.maxDepth - active)

end Setup

namespace Eval

theorem inCountedFrame_of_eq {x : Eval (σ × List Mark) α} {name : String}
    {bindings : Table Node} {s t : State (σ × List Mark)} {r : Except Halt α}
    (h : x (State.counted { s with env := (s.env.pushFrame name bindings).pushScope }) = (r, t)) :
    inCountedFrame name bindings x s =
      (r, State.counted { t with env := t.env.popScope.popFrame }) := by
  unfold inCountedFrame
  rw [Watched.inFrame_of_eq (y := fun s => x s.counted) h]

/-! ## Evaluation with marks and without -/

/-- The first computation is the second one with marks. -/
def Marked (x : Eval (σ × List Mark) α) (x' : Eval σ α) : Prop :=
  ∀ s marks, ∃ more, x (s.carrying marks) = ((x' s).1, (x' s).2.carrying (marks ++ more))

namespace Marked

variable {x : Eval (σ × List Mark) α} {x' : Eval σ α}

theorem ofCarries (h : Carries x x') : Marked x x' := by
  intro s marks
  refine ⟨[], ?_⟩
  rw [List.append_nil]
  exact h.same s marks

theorem ask {f : State (σ × List Mark) → Except Fault α} {f' : State σ → Except Fault α}
    (h : ∀ s marks, f (s.carrying marks) = f' s) : Marked (ask f) (ask f') :=
  ofCarries (.ask h)

theorem halt (e : Halt) : Marked (halt e : Eval (σ × List Mark) α) (halt e) :=
  fun s marks => ⟨[], by rw [List.append_nil]; rfl⟩

theorem bind {f : α → Eval (σ × List Mark) β} {f' : α → Eval σ β} (hx : Marked x x')
    (hf : ∀ a, Marked (f a) (f' a)) : Marked (x >>= f) (x' >>= f') := by
  intro s marks
  obtain ⟨more, hmarked⟩ := hx s marks
  cases h : x' s with
  | mk r t =>
    rw [h] at hmarked
    cases r with
    | ok a =>
      obtain ⟨later, hlater⟩ := hf a t (marks ++ more)
      refine ⟨more ++ later, ?_⟩
      rw [bind_of_ok hmarked, bind_of_ok h, ← List.append_assoc]
      exact hlater
    | error e =>
      refine ⟨more, ?_⟩
      rw [bind_of_error hmarked, bind_of_error h]

theorem rescue {mend : Fault → Eval (σ × List Mark) α} {mend' : Fault → Eval σ α}
    (hx : Marked x x') (hmend : ∀ f, Marked (mend f) (mend' f)) :
    Marked (rescue x mend) (rescue x' mend') := by
  intro s marks
  obtain ⟨more, hmarked⟩ := hx s marks
  cases h : x' s with
  | mk r t =>
    rw [h] at hmarked
    unfold Eval.rescue
    rw [bind_of_ok (attempt_of_eq h), bind_of_ok (attempt_of_eq hmarked)]
    rcases r with (f | status | _ | _) | a
    · obtain ⟨later, hlater⟩ := hmend f t (marks ++ more)
      refine ⟨more ++ later, ?_⟩
      rw [← List.append_assoc]
      exact hlater
    all_goals exact ⟨more, rfl⟩

/-- A frame is counted, and is otherwise a frame. -/
theorem inCountedFrame (name : String) (bindings : Table Node) (hx : Marked x x') :
    Marked (inCountedFrame name bindings x) (inFrame name bindings x') := by
  intro s marks
  -- the marks of the frame, of the computation in it, and of its end
  let inner : State σ := { s with env := (s.env.pushFrame name bindings).pushScope }
  obtain ⟨more, hmarked⟩ := hx inner (marks ++ [.frames inner.env.frameDepth])
  refine ⟨[.frames inner.env.frameDepth] ++ more ++
    [.frames (inFrame name bindings x' s).2.env.frameDepth], ?_⟩
  rw [inCountedFrame_of_eq (s := s.carrying marks) hmarked, ← List.append_assoc,
    ← List.append_assoc]
  rfl

end Marked

/-- Marks, as a relation between all evaluation with them and without. -/
def marking (setup : Setup σ) : Congruence setup.marked setup where
  rel x x' := Marked x x'
  pure a := .ofCarries (.pure a)
  bind := Marked.bind
  fail f := .ofCarries (.fail f)
  exhausted := .halt .exhausted
  rescue := Marked.rescue
  read text := (setup.marked_read text).symm
  lookup _ := .ask fun _ _ => rfl
  defined _ := .ask fun _ _ => rfl
  constant name hx := Marked.bind (.ofCarries (.checkConstant name)) fun _ =>
    Marked.bind hx fun value => .ofCarries (.setConstant name value)
  setVariable name value := .ofCarries (.setVariable name value)
  bindAll _ := .ofCarries (.modifyEnv _)
  calleeOfName _ _ := .ask fun _ _ => rfl
  calleeOfNode _ _ := .ask fun _ _ => rfl
  programPath name := .ofCarries (.programPath setup _ name)
  readFile path := .ofCarries (.askHost (setup.host.readFile · path))
  tool t args := .ofCarries (.tool setup.host _ setup.settings.searchPath t args)
  pipeline commands input mode s marks :=
    ⟨[.asked ⟨commands, input, mode⟩], pipeline_carrying setup _ commands input mode s marks⟩

theorem markedRoom_marked {setup : Setup σ}
    {run : Nat → List Node → Eval (σ × List Mark) Node} {run' : Nat → List Node → Eval σ Node}
    (hrun : ∀ room program, Marked (run room program) (run' room program)) (room : Nat) :
    (marking setup).Reenters (setup.markedRoom run room) (setup.withRoom run' room) := by
  induction room with
  | zero => exact ⟨fun _ _ _ _ _ => ⟨[.refused], rfl⟩, hrun 0, fun _ => .halt _⟩
  | succ room ih =>
    refine ⟨fun name bindings body => ?_, hrun (room + 1), fun _ => .halt _⟩
    exact ((marking setup).execute ih body).inCountedFrame name bindings

theorem markedNested_marked (setup : Setup σ) (budget room : Nat) (program : List Node) :
    Marked (setup.markedNested budget room program) (setup.nested budget room program) := by
  induction budget generalizing room program with
  | zero => exact (marking setup).exhausted
  | succ budget ih => exact (marking setup).execute (markedRoom_marked ih room) program

/-- **With marks** procedures are called and programs run as they are without. -/
theorem markedReentry_marked (setup : Setup σ) (active : Nat) :
    (marking setup).Reenters (setup.markedReentry active) (setup.reentry active) :=
  markedRoom_marked (markedNested_marked setup setup.budget) _

/-! ## Evaluation under two limits -/

/-- From a state with `depth` frames the first computation comes back to as many, counts at most
`most` on the way, and is the second one unless a call is refused. -/
def Steady (most depth : Nat) (x x' : Eval (σ × List Mark) α) : Prop :=
  ∀ s, s.env.frameDepth = depth → ∃ more,
    (x s).2.host.2 = s.host.2 ++ more ∧
      (x s).2.env.frameDepth = depth ∧
      (∀ count, .frames count ∈ more → count ≤ most) ∧
      (.refused ∉ more → x' s = x s)

end Eval

/-- As many frames as before. -/
theorem Environment.frameDepth_drift : Drift fun e e' => e'.frameDepth = e.frameDepth where
  refl _ := rfl
  trans h h' := h'.trans h
  setCurrent e t := (Keeps.setCurrent e t).frameDepth
  defineProcedure e name p := (Keeps.defineProcedure e name p).frameDepth

theorem Environment.frameDepth_popped (e : Environment) :
    e.popScope.popFrame.frameDepth = e.frameDepth - 1 := by
  simp [frameDepth, popFrame, popScope]

namespace Eval

namespace Steady

variable {most depth : Nat} {x x' : Eval (σ × List Mark) α}

/-- What marks nothing and pushes no frames. -/
theorem ofCarries {y : Eval σ α} (hx : Carries x y)
    (hy : Along (fun e e' => e'.frameDepth = e.frameDepth) y) : Steady most depth x x := by
  intro s hdepth
  have hsame : x s = ((y ⟨s.env, s.host.1⟩).1, (y ⟨s.env, s.host.1⟩).2.carrying s.host.2) :=
    hx.same ⟨s.env, s.host.1⟩ s.host.2
  refine ⟨[], ?_, ?_, fun _ h => absurd h List.not_mem_nil, fun _ => rfl⟩
  · rw [hsame, List.append_nil]
    rfl
  · rw [hsame]
    exact (hy ⟨s.env, s.host.1⟩).trans hdepth

/-- What leaves the state as it is. -/
theorem ofState (h : ∀ s, (x s).2 = s) : Steady most depth x x := by
  intro s hdepth
  refine ⟨[], ?_, ?_, fun _ h => absurd h List.not_mem_nil, fun _ => rfl⟩
  · rw [h, List.append_nil]
  · rw [h]
    exact hdepth

theorem ask (f : State (σ × List Mark) → Except Fault α) : Steady most depth (ask f) (ask f) :=
  ofState (ask_state f)

theorem halt (e : Halt) : Steady most depth (halt e : Eval (σ × List Mark) α) (halt e) :=
  ofState fun _ => rfl

/-- What goes on after a step that was the same under both limits. -/
theorem extend {s t : State (σ × List Mark)} {y y' : Eval (σ × List Mark) β} {more : List Mark}
    (hmarks : t.host.2 = s.host.2 ++ more) (hdepth : t.env.frameDepth = depth)
    (hcounts : ∀ count, .frames count ∈ more → count ≤ most) (hy : Steady most depth y y') :
    ∃ all, (y t).2.host.2 = s.host.2 ++ all ∧ (y t).2.env.frameDepth = depth ∧
      (∀ count, .frames count ∈ all → count ≤ most) ∧
      (.refused ∉ all → .refused ∉ more ∧ y' t = y t) := by
  obtain ⟨later, hlater, hback, hcounts', hsame⟩ := hy t hdepth
  refine ⟨more ++ later, ?_, hback, fun count h => ?_, fun h => ?_⟩
  · rw [hlater, hmarks, List.append_assoc]
  · exact (List.mem_append.1 h).elim (hcounts count) (hcounts' count)
  · rw [List.mem_append, not_or] at h
    exact ⟨h.1, hsame h.2⟩

theorem bind {f f' : α → Eval (σ × List Mark) β} (hx : Steady most depth x x')
    (hf : ∀ a, Steady most depth (f a) (f' a)) : Steady most depth (x >>= f) (x' >>= f') := by
  intro s hdepth
  obtain ⟨more, hmarks, hback, hcounts, hsame⟩ := hx s hdepth
  cases h : x s with
  | mk r t =>
    rw [h] at hmarks hback hsame
    cases r with
    | ok a =>
      obtain ⟨all, hall, hend, hcounts', hsame'⟩ := (hf a).extend hmarks hback hcounts
      rw [bind_of_ok h]
      refine ⟨all, hall, hend, hcounts', fun hnot => ?_⟩
      obtain ⟨hearlier, hlater⟩ := hsame' hnot
      rw [bind_of_ok (hsame hearlier), hlater]
    | error e =>
      rw [bind_of_error h]
      refine ⟨more, hmarks, hback, hcounts, fun hnot => ?_⟩
      rw [bind_of_error (hsame hnot)]

theorem attempt (hx : Steady most depth x x') :
    Steady most depth (attempt x) (attempt x') := by
  intro s hdepth
  obtain ⟨more, hmarks, hback, hcounts, hsame⟩ := hx s hdepth
  refine ⟨more, hmarks, hback, hcounts, fun hnot => ?_⟩
  unfold Eval.attempt
  rw [hsame hnot]

theorem rescue {mend mend' : Fault → Eval (σ × List Mark) α} (hx : Steady most depth x x')
    (hmend : ∀ f, Steady most depth (mend f) (mend' f)) :
    Steady most depth (rescue x mend) (rescue x' mend') := by
  refine bind hx.attempt fun outcome => ?_
  rcases outcome with (f | status | _ | _) | a
  · exact hmend f
  · exact halt _
  · exact halt _
  · exact halt _
  · exact ofState fun _ => rfl

theorem checkConstant (name : String) :
    Steady most depth (checkConstant name : Eval (σ × List Mark) Unit) (checkConstant name) := by
  rw [checkConstant_eq]
  exact ask _

/-- Constants are set without a frame. -/
theorem setConstant (name : String) (value : Node) :
    Steady most depth (setConstant name value : Eval (σ × List Mark) Node)
      (setConstant name value) := by
  refine ofCarries (.setConstant name value) fun s => ?_
  change ((ofExcept (s.env.defineConstant name value) >>= fun next =>
    modifyEnv (fun _ => next) >>= fun _ => pure value : Eval σ Node) s).2.env.frameDepth = _
  unfold Environment.defineConstant
  split
  · rfl
  · rfl

theorem pipeline (setup : Setup σ) (commands : List Command) (input : Option String)
    (mode : OutputMode) :
    Steady most depth (setup.marked.pipeline commands input mode)
      (setup.marked.pipeline commands input mode) := by
  intro s hdepth
  have hsame := pipeline_carrying setup (fun request marks => marks ++ [Mark.asked request])
    commands input mode ⟨s.env, s.host.1⟩ s.host.2
  refine ⟨[.asked ⟨commands, input, mode⟩], ?_, ?_, fun _ h => ?_, fun _ => rfl⟩
  · exact congrArg (·.2.host.2) hsame
  · exact ((Along.pipeline Environment.frameDepth_drift setup.marked commands input mode) s).trans
      hdepth
  · cases List.mem_singleton.1 h

/-- A frame takes one off the limit, and is gone afterwards. -/
theorem inCountedFrame (name : String) (bindings : Table Node) (hmost : depth + 1 ≤ most)
    (hx : Steady most (depth + 1) x x') :
    Steady most depth (inCountedFrame name bindings x) (inCountedFrame name bindings x') := by
  intro s hdepth
  let inner : State (σ × List Mark) :=
    { s with env := (s.env.pushFrame name bindings).pushScope }
  have hinner : inner.counted.env.frameDepth = depth + 1 := congrArg (· + 1) hdepth
  obtain ⟨more, hmarks, hback, hcounts, hsame⟩ := hx inner.counted hinner
  cases h : x inner.counted with
  | mk r t =>
    rw [h] at hmarks hback hsame
    have hpopped : t.env.popScope.popFrame.frameDepth = depth := by
      rw [Environment.frameDepth_popped, hback]
      rfl
    rw [inCountedFrame_of_eq (s := s) h]
    refine ⟨[.frames (depth + 1)] ++ more ++ [.frames depth], ?_, hpopped, ?_, fun hnot => ?_⟩
    · change t.host.2 ++ [.frames t.env.popScope.popFrame.frameDepth] = _
      rw [hmarks, hpopped, ← List.append_assoc, ← List.append_assoc, ← hinner]
      rfl
    · intro count hcount
      rw [List.mem_append, List.mem_append, List.mem_singleton, List.mem_singleton] at hcount
      obtain (heq | hmore) | heq := hcount
      · cases heq
        exact hmost
      · exact hcounts count hmore
      · cases heq
        omega
    · rw [List.mem_append, List.mem_append, not_or, not_or] at hnot
      exact inCountedFrame_of_eq (hsame hnot.1.2)

/-- A call is refused under the lower limit first. -/
theorem refuse (f : Fault) (x' : Eval (σ × List Mark) α) : Steady most depth (refuse f) x' := by
  intro s hdepth
  refine ⟨[.refused], rfl, hdepth, fun count hcount => ?_, fun hnot => ?_⟩
  · cases List.mem_singleton.1 hcount
  · exact absurd List.mem_cons_self hnot

end Steady

/-- Both limits, as a relation between all evaluation where so many frames are active. -/
def limiting (setup : Setup σ) (limit most depth : Nat) :
    Congruence setup.marked (setup.withLimit limit).marked where
  rel x x' := Steady most depth x x'
  pure _ := .ofState fun _ => rfl
  bind := Steady.bind
  fail f := .halt (.fault f)
  exhausted := .halt .exhausted
  rescue := Steady.rescue
  read := setup.withLimit_read limit
  lookup _ := .ask _
  defined _ := .ask _
  constant name hx := Steady.bind (.checkConstant name) fun _ =>
    Steady.bind hx fun value => .setConstant name value
  setVariable name value := .ofCarries (.setVariable name value)
    (.setVariable Environment.frameDepth_drift name value)
  bindAll _ := .ofCarries (.modifyEnv _) 
    (.modifyEnv fun e => Environment.frameDepth_drift.setCurrent e _)
  calleeOfName _ _ := .ask _
  calleeOfNode _ _ := .ask _
  programPath name := .ofCarries (.programPath setup _ name)
    (.programPath Environment.frameDepth_drift setup name)
  readFile _ := .ofState fun _ => rfl
  tool t args := .ofCarries (.tool setup.host _ setup.settings.searchPath t args)
    (.tool Environment.frameDepth_drift setup.host setup.settings.searchPath t args)
  pipeline := .pipeline setup

/-- Room is used up frame by frame, and the higher limit never leaves less of it. -/
theorem markedRoom_steady {setup : Setup σ} {limit most : Nat}
    {run run' : Nat → List Node → Eval (σ × List Mark) Node}
    (hrun : ∀ depth room room' program, depth + room ≤ most → room ≤ room' →
      Steady most depth (run room program) (run' room' program)) (room : Nat) :
    ∀ depth room', depth + room ≤ most → room ≤ room' →
      (limiting setup limit most depth).Reenters (setup.markedRoom run room)
        ((setup.withLimit limit).markedRoom run' room') := by
  induction room with
  | zero =>
    intro depth room' hmost hroom
    cases room' with
    | zero =>
      exact ⟨fun _ _ _ => .refuse _ _, fun program => hrun depth 0 0 program hmost hroom,
        fun _ => .halt _⟩
    | succ room' =>
      exact ⟨fun _ _ _ => .refuse _ _, fun program => hrun depth 0 _ program hmost hroom,
        fun _ => .halt _⟩
  | succ room ih =>
    intro depth room' hmost hroom
    cases room' with
    | zero => omega
    | succ room' =>
      refine ⟨fun name bindings body => ?_,
        fun program => hrun depth (room + 1) (room' + 1) program hmost hroom, fun _ => .halt _⟩
      have hbody := (limiting setup limit most (depth + 1)).execute
        (ih (depth + 1) room' (by omega) (by omega)) body
      exact Steady.inCountedFrame name bindings (by omega) hbody

theorem markedNested_steady (setup : Setup σ) (limit most budget : Nat) :
    ∀ depth room room' program, depth + room ≤ most → room ≤ room' →
      Steady most depth (setup.markedNested budget room program)
        ((setup.withLimit limit).markedNested budget room' program) := by
  induction budget with
  | zero => exact fun _ _ _ _ _ _ => .halt .exhausted
  | succ budget ih =>
    intro depth room room' program hmost hroom
    exact (limiting setup limit most depth).execute
      (markedRoom_steady ih room depth room' hmost hroom) program

/-- **A higher limit** changes nothing up to the first call that the lower one refuses, and the
lower one bounds the frames. -/
theorem markedReentry_steady (setup : Setup σ) {limit active : Nat}
    (hactive : active ≤ setup.settings.maxDepth) (hlimit : setup.settings.maxDepth ≤ limit) :
    (limiting setup limit setup.settings.maxDepth active).Reenters (setup.markedReentry active)
      ((setup.withLimit limit).markedReentry active) := by
  refine markedRoom_steady (markedNested_steady setup limit _ setup.budget) _ active _ ?_ ?_
  · omega
  · exact Nat.sub_le_sub_right hlimit active

end Eval

namespace Session

namespace Task

/-- The task with marks. -/
def mark (setup : Setup σ) (task : Task) (s : State σ) :
    Except Halt Node × State (σ × List Mark) :=
  task.eval setup.marked (setup.markedReentry s.env.frameDepth) (s.carrying [])

/-- The marks of the task, in order. -/
def marks (setup : Setup σ) (task : Task) (s : State σ) : List Mark :=
  (task.mark setup s).2.host.2

/-- The pipelines that the task asks the host for, in order. -/
def requests (setup : Setup σ) (task : Task) (s : State σ) : List Request :=
  (task.marks setup s).filterMap Mark.request?

/-- With marks the task has the same outcome. -/
theorem mark_eq (setup : Setup σ) (task : Task) (s : State σ) :
    task.mark setup s =
      ((task.perform setup s).1, (task.perform setup s).2.carrying (task.marks setup s)) := by
  have hre := Eval.markedReentry_marked setup s.env.frameDepth
  obtain ⟨more, hmark⟩ := eval_related (Eval.marking setup) hre task s []
  rw [← perform_eq] at hmark
  have hmarks : task.marks setup s = more := by
    unfold marks mark
    rw [hmark]
    rfl
  rw [hmarks]
  exact hmark

/-- Two shells with the same marked outcome have the same outcome. -/
theorem perform_of_mark {setup setup' : Setup σ} {task : Task} {s : State σ}
    (h : task.mark setup' s = task.mark setup s) : task.perform setup' s = task.perform setup s := by
  have hforget (setup : Setup σ) : task.perform setup s = ((task.mark setup s).1,
      ⟨(task.mark setup s).2.env, (task.mark setup s).2.host.1⟩) := by
    rw [mark_eq]
    rfl
  rw [hforget setup', hforget setup, h]

/-- The frames stay in the limit, and a higher limit is the same to a task with no call refused. -/
theorem steady (setup : Setup σ) (task : Task) {s : State σ} {limit : Nat}
    (hactive : s.env.frameDepth ≤ setup.settings.maxDepth)
    (hlimit : setup.settings.maxDepth ≤ limit) :
    (task.perform setup s).2.env.frameDepth = s.env.frameDepth ∧
      (∀ count, .frames count ∈ task.marks setup s → count ≤ setup.settings.maxDepth) ∧
      (.refused ∉ task.marks setup s →
        task.mark (setup.withLimit limit) s = task.mark setup s) := by
  have hre := Eval.markedReentry_steady setup hactive hlimit
  obtain ⟨more, hmore, hdepth, hcounts, hsame⟩ :=
    eval_related (Eval.limiting setup limit _ _) hre task (s.carrying []) rfl
  have hmarks : task.marks setup s = more := hmore
  rw [hmarks]
  have heq := congrArg (·.2.env.frameDepth) (mark_eq setup task s)
  exact ⟨heq.symm.trans hdepth, hcounts, hsame⟩

end Task

/-- **Raising the limit on nested calls is safe.** From at most as many frames as the limit allows,
a task counts no more at any push or pop of one, and ends with as many as it had. If none of its
calls is refused, not even one whose fault `eval` makes a value, then under any higher limit it
has the same outcome, in the same state, with the same requests for pipelines. -/
theorem limit_raised (setup : Setup σ) (task : Task) (s : State σ)
    (hactive : s.env.frameDepth ≤ setup.settings.maxDepth) :
    task.mark setup s =
        ((task.perform setup s).1, (task.perform setup s).2.carrying (task.marks setup s)) ∧
      (∀ count, .frames count ∈ task.marks setup s → count ≤ setup.settings.maxDepth) ∧
      (task.perform setup s).2.env.frameDepth = s.env.frameDepth ∧
      (.refused ∉ task.marks setup s → ∀ limit, setup.settings.maxDepth ≤ limit →
        task.perform (setup.withLimit limit) s = task.perform setup s ∧
          task.requests (setup.withLimit limit) s = task.requests setup s) := by
  obtain ⟨hdepth, hcounts, -⟩ := task.steady setup hactive (Nat.le_refl _)
  refine ⟨task.mark_eq setup s, hcounts, hdepth, fun hnot limit hlimit => ?_⟩
  have hmark := (task.steady setup hactive hlimit).2.2 hnot
  refine ⟨Task.perform_of_mark hmark, ?_⟩
  unfold Task.requests Task.marks
  rw [hmark]

/-- A call in the only frame there is room for goes the same way with room for more. -/
theorem limit_raised_call :
    let setup : Setup Machine := { host := Machine.host, settings := { maxDepth := 1 } }
    let task : Task := .procedure "f" ⟨[], [.ofString "a"]⟩ []
    let s := Session.start Machine.fresh
    task.marks setup s = [.frames 1, .frames 0] ∧
      task.perform setup s = (.ok (.ofString "a"), s) ∧
      task.perform (setup.withLimit 2) s = (.ok (.ofString "a"), s) := by
  intro setup task s
  have hmarks : task.marks setup s = [.frames 1, .frames 0] := rfl
  have hperform : task.perform setup s = (.ok (.ofString "a"), s) := rfl
  obtain ⟨-, -, -, hraised⟩ := limit_raised setup task s (Nat.zero_le _)
  have hnot : .refused ∉ task.marks setup s := by
    rw [hmarks]
    simp
  exact ⟨hmarks, hperform, (hraised hnot 2 (by decide)).1.trans hperform⟩

end Session

end ExprShell
