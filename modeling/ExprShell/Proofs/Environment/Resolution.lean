/-
What names mean, told from all that was done to the scopes. A history lists the changes made to
new scopes, the latest first. From it alone, without tables or frames, one can tell how many calls
are active (`activeCalls`), the binding of a name that survives at a level (`survivor`: level 0 is
that of the dynamic variables, level n that of the nth active call) and its first definition as a
constant (`firstConstant`).

The main statement, `vars_resolve`: look-ups find what the history tells, and `vars` lists the names
that a look-up finds, once each and in the order of their code points. A change is described three
times, by what it does to each of these accounts; each description is borne out by one step lemma
(`frameDepth_perform`, `boundAt_perform`, `constants_perform`), and a whole history by induction.
-/
import ExprShell.Tool.Run

namespace ExprShell

/-- The order of texts by code points: a text stands before those that it begins, and otherwise the
first code point in which two texts differ decides. -/
def Text.Precedes (a b : String) : Prop :=
  List.Lex (fun c d => c.toNat < d.toNat) a.toList b.toList

theorem Text.precedes_of_lt {a b : String} (h : a < b) : Precedes a b := h

/-- A name is listed in a table exactly if it has a value there. -/
theorem Table.mem_names {α : Type} {t : Table α} {name : String} :
    name ∈ t.names ↔ (t.get? name).isSome := by
  induction t with
  | nil => simp [names]
  | cons entry rest ih =>
    rw [get?_cons]
    by_cases h : name = entry.1
    · simp [names, h]
    · simpa [names, h] using ih

namespace Environment

/-! ## The listing -/

theorem mem_insertName {name other : String} {names : List String} :
    other ∈ insertName name names ↔ other = name ∨ other ∈ names := by
  induction names with
  | nil => simp [insertName]
  | cons first rest ih =>
    unfold insertName
    split
    · exact List.mem_cons
    · split
      · next h => simp [h]
      · simp only [List.mem_cons, ih]
        exact or_left_comm

/-- Adding a name keeps a list strictly increasing. -/
theorem insertName_increasing (name : String) {names : List String} (h : names.Pairwise (· < ·)) :
    (insertName name names).Pairwise (· < ·) := by
  induction names with
  | nil => exact List.pairwise_singleton _ _
  | cons first rest ih =>
    obtain ⟨hfirst, hrest⟩ := List.pairwise_cons.1 h
    unfold insertName
    split
    · next hlt =>
      refine List.pairwise_cons.2 ⟨?_, h⟩
      intro other hother
      rcases List.mem_cons.1 hother with rfl | hother
      · exact hlt
      · exact String.lt_trans hlt (hfirst other hother)
    · next hnlt =>
      split
      · exact h
      · next hne =>
        have hlt : first < name :=
          String.not_le.1 fun hle => hne (String.le_antisymm hle (String.not_lt.1 hnlt))
        refine List.pairwise_cons.2 ⟨?_, ih hrest⟩
        intro other hother
        rcases mem_insertName.1 hother with rfl | hother
        · exact hlt
        · exact hfirst other hother

theorem foldr_insertName_increasing (names : List String) :
    (names.foldr insertName []).Pairwise (· < ·) := by
  induction names with
  | nil => exact List.Pairwise.nil
  | cons name rest ih => exact insertName_increasing name ih

theorem visibleNames_increasing (e : Environment) : e.visibleNames.Pairwise Text.Precedes :=
  (foldr_insertName_increasing _).imp Text.precedes_of_lt

theorem mem_foldr_insertName {name : String} {names : List String} :
    name ∈ names.foldr insertName [] ↔ name ∈ names := by
  induction names with
  | nil => exact Iff.rfl
  | cons first rest ih => rw [List.foldr_cons, mem_insertName, ih, List.mem_cons]

/-- The listing and the look-up go through the same tables. -/
theorem mem_visibleNames {e : Environment} {name : String} :
    name ∈ e.visibleNames ↔ ∃ value, e.lookup name = some value := by
  rw [visibleNames, mem_foldr_insertName, ← Option.isSome_iff_exists]
  cases h : e.frames with
  | nil => simp [lookup, h, Table.mem_names, or_comm]
  | cons frame rest => simp [lookup, h, Table.mem_names, or_comm, or_assoc]

/-! ## Histories -/

/-- What can be done to scopes. -/
inductive Change where
  | bind (name : String) (value : Node)
  | unbind (name : String)
  | defineConstant (name : String) (value : Node)
  | pushFrame (procedure : String) (bindings : Table Node)
  | popFrame
  | pushScope
  | popScope
  | defineProcedure (name : String) (p : Procedure)
  | reset

/-- The scopes after a change. A constant that is there cannot be set again, and nothing changes. -/
def perform (e : Environment) : Change → Environment
  | .bind name value => e.bind name value
  | .unbind name => e.unbind name
  | .defineConstant name value =>
    match e.defineConstant name value with
    | .ok next => next
    | .error _ => e
  | .pushFrame procedure bindings => e.pushFrame procedure bindings
  | .popFrame => e.popFrame
  | .pushScope => e.pushScope
  | .popScope => e.popScope
  | .defineProcedure name p => e.defineProcedure name p
  | .reset => e.reset

/-- The scopes that a history leads to from new ones; its latest change stands first. -/
def after : List Change → Environment
  | [] => {}
  | change :: earlier => (after earlier).perform change

namespace Change

/-- The number of active calls after a change, from that before it. -/
def calls (active : Nat) : Change → Nat
  | pushFrame _ _ => active + 1
  | popFrame => active - 1
  | reset => 0
  | _ => active

/-- What a change says about a name at a level: that it is bound, that it is not bound there (any
more), or nothing. Bindings are made and dropped at the level of the innermost active call. -/
def verdict? (active level : Nat) (name : String) : Change → Option (Option Node)
  | bind other value => if level = active ∧ name = other then some (some value) else none
  | unbind other => if level = active ∧ name = other then some none else none
  | pushFrame _ bindings => if level = active + 1 then some (bindings.get? name) else none
  | popFrame => if level = active ∧ 0 < level then some none else none
  | reset => some none
  | _ => none

/-- The value that a change defines a name as a constant with. -/
def constant? (name : String) : Change → Option Node
  | defineConstant other value => if name = other then some value else none
  | _ => none

end Change

/-- The number of active calls after a history. -/
def activeCalls : List Change → Nat
  | [] => 0
  | change :: earlier => change.calls (activeCalls earlier)

/-- The latest surviving binding of a name at a level: the latest change that says something about
the name there decides. -/
def survivor (level : Nat) (name : String) : List Change → Option Node
  | [] => none
  | change :: earlier =>
    (change.verdict? (activeCalls earlier) level name).getD (survivor level name earlier)

/-- The first definition of a name as a constant. -/
def firstConstant (name : String) : List Change → Option Node
  | [] => none
  | change :: earlier => (firstConstant name earlier).or (change.constant? name)

/-- What a name means after a history: its latest surviving binding in the innermost call, else
among the dynamic variables, else its first definition as a constant. Outside calls the first two
are one. -/
def reading (history : List Change) (name : String) : Option Node :=
  (survivor (activeCalls history) name history).or
    ((survivor 0 name history).or (firstConstant name history))

/-! ## Levels -/

/-- What a name is bound to at a level. -/
def boundAt (e : Environment) (name : String) : Nat → Option Node
  | 0 => e.dynamic.get? name
  | level + 1 => (e.frames.reverse[level]?).bind (·.bindings.get? name)

section

variable (e : Environment) (name : String) (level : Nat)

/-- Above the innermost call nothing is bound. -/
theorem boundAt_of_lt (h : e.frameDepth < level) : e.boundAt name level = none := by
  cases level with
  | zero => omega
  | succ level =>
    have hlength : e.frames.reverse.length ≤ level := by
      rw [List.length_reverse]
      exact Nat.le_of_lt_succ h
    rw [boundAt, List.getElem?_eq_none hlength, Option.bind_none]

/-- The innermost call has the highest level; the others are where they would be without it. -/
theorem boundAt_pushFrame (procedure : String) (bindings : Table Node) :
    (e.pushFrame procedure bindings).boundAt name level =
      if level = e.frameDepth + 1 then bindings.get? name else e.boundAt name level := by
  cases level with
  | zero => rfl
  | succ level =>
    simp only [boundAt, pushFrame, frameDepth, List.reverse_cons, Nat.add_right_cancel_iff,
      List.getElem?_append, List.length_reverse]
    split
    · next hlt => rw [if_neg (Nat.ne_of_lt hlt)]
    · next hnlt =>
      split
      · next heq => simp [heq]
      · next hne =>
        have hone : [Frame.mk procedure bindings][level - e.frames.length]? = none :=
          List.getElem?_eq_none (by rw [List.length_singleton]; omega)
        have hrest : e.frames.reverse[level]? = none :=
          List.getElem?_eq_none (by rw [List.length_reverse]; omega)
        rw [hone, hrest]

/-- Scopes are those of the top level, or those of a caller with a frame pushed. -/
theorem atTop_or_inCall :
    e.frames = [] ∨ ∃ caller procedure bindings, e = pushFrame caller procedure bindings := by
  obtain ⟨constants, dynamic, frames, globals, scopes⟩ := e
  cases frames with
  | nil => exact .inl rfl
  | cons frame rest =>
    exact .inr ⟨⟨constants, dynamic, rest, globals, scopes⟩, frame.procedure, frame.bindings, rfl⟩

theorem frameDepth_of_atTop {e : Environment} (h : e.frames = []) : e.frameDepth = 0 := by
  rw [frameDepth, h, List.length_nil]

theorem boundAt_popFrame :
    e.popFrame.boundAt name level =
      if level = e.frameDepth ∧ 0 < level then none else e.boundAt name level := by
  rcases e.atTop_or_inCall with h | ⟨caller, procedure, bindings, rfl⟩
  · have hpop : e.popFrame = e := by rw [popFrame, h, List.tail_nil, ← h]
    rw [hpop, frameDepth_of_atTop h, if_neg (by omega)]
  · change caller.boundAt name level =
      if level = caller.frameDepth + 1 ∧ 0 < level then none else _
    rw [boundAt_pushFrame]
    split
    · next hlevel => exact boundAt_of_lt _ _ _ (by omega)
    · next hlevel => rw [if_neg (by omega)]

@[simp] theorem frameDepth_setCurrent (t : Table Node) :
    (e.setCurrent t).frameDepth = e.frameDepth := by
  rcases e.atTop_or_inCall with h | ⟨caller, procedure, bindings, rfl⟩
  · simp only [setCurrent, frameDepth, h]
  · rfl

@[simp] theorem constants_setCurrent (t : Table Node) :
    (e.setCurrent t).constants = e.constants := by
  rcases e.atTop_or_inCall with h | ⟨caller, procedure, bindings, rfl⟩
  · simp only [setCurrent, h]
  · rfl

/-- What `let` writes to is the highest level. -/
theorem boundAt_setCurrent (t : Table Node) :
    (e.setCurrent t).boundAt name level =
      if level = e.frameDepth then t.get? name else e.boundAt name level := by
  rcases e.atTop_or_inCall with h | ⟨caller, procedure, bindings, rfl⟩
  · rw [frameDepth_of_atTop h]
    cases level with
    | zero => simp [setCurrent, h, boundAt]
    | succ level => simp [setCurrent, h, boundAt]
  · change (caller.pushFrame procedure t).boundAt name level =
      if level = caller.frameDepth + 1 then t.get? name else _
    rw [boundAt_pushFrame, boundAt_pushFrame]
    split
    · rfl
    · rfl

theorem get?_current : e.current.get? name = e.boundAt name e.frameDepth := by
  have h := e.boundAt_setCurrent name e.frameDepth e.current
  rw [setCurrent_current, if_pos rfl] at h
  exact h.symm

/-- Writing to one name changes what is bound to it at the highest level, and nothing else. -/
theorem boundAt_setCurrent_of_get? {t : Table Node} {other : String} {value : Option Node}
    (h : ∀ n, t.get? n = if n = other then value else e.current.get? n) :
    (e.setCurrent t).boundAt name level =
      if level = e.frameDepth ∧ name = other then value else e.boundAt name level := by
  rw [boundAt_setCurrent, h, get?_current]
  by_cases hlevel : level = e.frameDepth
  · simp [hlevel]
  · simp [hlevel]

/-- A look-up tries the highest level, the lowest one, and the constants. -/
theorem lookup_eq_boundAt :
    e.lookup name = (e.boundAt name e.frameDepth).or
      ((e.boundAt name 0).or (e.constants.get? name)) := by
  rw [← get?_current]
  cases h : e.frames with
  | nil => simp [lookup, current, h, boundAt, ← Option.or_assoc]
  | cons frame rest => simp only [lookup, current, h, boundAt]

end

/-! ## What a change does -/

theorem defineProcedure_eq (e : Environment) (name : String) (p : Procedure) :
    ∃ globals scopes, e.defineProcedure name p = { e with globals, scopes } := by
  unfold defineProcedure
  split
  · exact ⟨_, _, rfl⟩
  · exact ⟨_, _, rfl⟩

theorem perform_defineConstant (e : Environment) (name : String) (value : Node) :
    ∃ constants : Table Node,
      e.perform (.defineConstant name value) = { e with constants } ∧
      ∀ other, constants.get? other =
        (e.constants.get? other).or (if other = name then some value else none) := by
  cases h : e.constants.get? name with
  | some old =>
    refine ⟨e.constants, ?_, ?_⟩
    · simp [perform, defineConstant, isConstant, Table.contains, h]
    · intro other
      by_cases hother : other = name
      · simp [hother, h]
      · simp [hother]
  | none =>
    refine ⟨e.constants.insert name value, ?_, ?_⟩
    · simp [perform, defineConstant, isConstant, Table.contains, h]
    · intro other
      rw [Table.get?_insert]
      by_cases hother : other = name
      · simp [hother, h]
      · simp [hother]

theorem frameDepth_perform (e : Environment) (change : Change) :
    (e.perform change).frameDepth = change.calls e.frameDepth := by
  cases change with
  | bind name value => exact e.frameDepth_setCurrent _
  | unbind name => exact e.frameDepth_setCurrent _
  | defineConstant name value =>
    obtain ⟨constants, h, -⟩ := e.perform_defineConstant name value
    rw [h]
    rfl
  | pushFrame procedure bindings => rfl
  | popFrame => exact List.length_tail
  | pushScope => rfl
  | popScope => rfl
  | defineProcedure name p =>
    obtain ⟨globals, scopes, h⟩ := e.defineProcedure_eq name p
    rw [perform, h]
    rfl
  | reset => rfl

theorem getD_ite_some {α : Type} (c : Prop) [Decidable c] (a b : α) :
    (if c then some a else none).getD b = if c then a else b :=
  apply_ite (Option.getD · b) c (some a) none

/-- A change leaves bound at a level what it says about it, or else what was bound there. -/
theorem boundAt_perform (e : Environment) (change : Change) (name : String) (level : Nat) :
    (e.perform change).boundAt name level =
      (change.verdict? e.frameDepth level name).getD (e.boundAt name level) := by
  cases change with
  | bind other value =>
    have h := fun n => e.current.get?_insert other n value
    rw [perform, bind, e.boundAt_setCurrent_of_get? name level h, Change.verdict?, getD_ite_some]
  | unbind other =>
    have h := fun n => e.current.get?_erase other n
    rw [perform, unbind, e.boundAt_setCurrent_of_get? name level h, Change.verdict?, getD_ite_some]
  | defineConstant other value =>
    obtain ⟨constants, h, -⟩ := e.perform_defineConstant other value
    rw [h]
    cases level with
    | _ => rfl
  | pushFrame procedure bindings => rw [perform, boundAt_pushFrame, Change.verdict?, getD_ite_some]
  | popFrame => rw [perform, boundAt_popFrame, Change.verdict?, getD_ite_some]
  | pushScope =>
    cases level with
    | _ => rfl
  | popScope =>
    cases level with
    | _ => rfl
  | defineProcedure other p =>
    obtain ⟨globals, scopes, h⟩ := e.defineProcedure_eq other p
    rw [perform, h]
    cases level with
    | _ => rfl
  | reset =>
    cases level with
    | _ => rfl

/-- A constant is defined once: a later definition counts only where there was none. -/
theorem constants_perform (e : Environment) (change : Change) (name : String) :
    (e.perform change).constants.get? name =
      (e.constants.get? name).or (change.constant? name) := by
  cases change with
  | bind other value => simp [perform, bind, Change.constant?]
  | unbind other => simp [perform, unbind, Change.constant?]
  | defineConstant other value =>
    obtain ⟨constants, h, hget⟩ := e.perform_defineConstant other value
    rw [h]
    exact hget name
  | defineProcedure other p =>
    obtain ⟨globals, scopes, h⟩ := e.defineProcedure_eq other p
    rw [perform, h]
    exact Option.or_none.symm
  | pushFrame procedure bindings => exact Option.or_none.symm
  | popFrame => exact Option.or_none.symm
  | pushScope => exact Option.or_none.symm
  | popScope => exact Option.or_none.symm
  | reset => exact Option.or_none.symm

/-! ## What a history tells -/

theorem frameDepth_after (history : List Change) :
    (after history).frameDepth = activeCalls history := by
  induction history with
  | nil => rfl
  | cons change earlier ih => rw [after, frameDepth_perform, ih, activeCalls]

theorem boundAt_after (history : List Change) (name : String) (level : Nat) :
    (after history).boundAt name level = survivor level name history := by
  induction history with
  | nil =>
    cases level with
    | _ => rfl
  | cons change earlier ih => rw [after, boundAt_perform, frameDepth_after, ih, survivor]

theorem constants_after (history : List Change) (name : String) :
    (after history).constants.get? name = firstConstant name history := by
  induction history with
  | nil => rfl
  | cons change earlier ih => rw [after, constants_perform, ih, firstConstant]

theorem lookup_after (history : List Change) (name : String) :
    (after history).lookup name = reading history name := by
  rw [lookup_eq_boundAt, frameDepth_after, boundAt_after, boundAt_after, constants_after, reading]

-- What a caller binds is out of sight inside a call, and there again after it.
example (value : Node) :
    reading [.pushFrame "inner" [], .bind "x" value, .pushFrame "outer" []] "x" = none ∧
    reading [.popFrame, .pushFrame "inner" [], .bind "x" value, .pushFrame "outer" []] "x" =
      some value :=
  ⟨rfl, rfl⟩

/-- **`vars` lists what resolves, and names resolve to what the history tells.** -/
theorem vars_resolve {σ : Type} (host : Host σ) (searchPath : List String) (outside : σ)
    (history : List Change) :
    Tool.vars.call host searchPath [] ⟨after history, outside⟩ =
      (.ok (.data ((after history).visibleNames.map .ofString)), ⟨after history, outside⟩) ∧
    (after history).visibleNames.Pairwise Text.Precedes ∧
    (∀ name, name ∈ (after history).visibleNames ↔
      ∃ value, (after history).lookup name = some value) ∧
    ∀ name, (after history).lookup name = reading history name :=
  ⟨rfl, visibleNames_increasing _, fun _ => mem_visibleNames, lookup_after history⟩

end Environment

end ExprShell
