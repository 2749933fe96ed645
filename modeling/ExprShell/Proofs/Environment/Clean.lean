/-
Clean scopes: all that is bound is a value, and all procedures are code. Look-ups find only that,
and binding, defining, entering and leaving a call keep it.
-/
import ExprShell.Environment.Basic
import ExprShell.Proofs.Node.Inert

namespace ExprShell

open Node (IsValue AreValues)

/-! ## Tables -/

/-- Every entry has a property. -/
def Table.All {α : Type} (P : α → Prop) (t : Table α) : Prop :=
  ∀ entry ∈ t, P entry.2

namespace Table.All

variable {α : Type} {P : α → Prop} {t : Table α} {name : String} {value : α}

theorem of_get? (h : t.All P) (hget : t.get? name = some value) : P value := by
  induction t with
  | nil => cases hget
  | cons entry rest ih =>
    obtain ⟨hentry, hrest⟩ := List.forall_mem_cons.1 h
    rw [get?_cons] at hget
    split at hget
    · cases hget
      exact hentry
    · exact ih hrest hget

theorem erase (h : t.All P) : (t.erase name).All P :=
  fun entry hentry => h entry (List.mem_filter.1 hentry).1

theorem insert (h : t.All P) (hvalue : P value) : (t.insert name value).All P :=
  List.forall_mem_cons.2 ⟨hvalue, h.erase⟩

theorem insertAll {entries : List (String × α)} (h : t.All P) (hentries : ∀ e ∈ entries, P e.2) :
    (t.insertAll entries).All P := by
  unfold Table.insertAll
  induction entries generalizing t with
  | nil => exact h
  | cons entry rest ih =>
    obtain ⟨hentry, hrest⟩ := List.forall_mem_cons.1 hentries
    exact ih (h.insert hentry) hrest

end Table.All

/-! ## Scopes -/

/-- The body of the procedure is code. -/
def Procedure.IsCode (p : Procedure) : Prop :=
  ∀ n ∈ p.body, n.IsCode

/-- All that is bound is a value, and all procedures are code. -/
structure Environment.Clean (e : Environment) : Prop where
  constants : e.constants.All IsValue
  dynamic : e.dynamic.All IsValue
  frames : ∀ frame ∈ e.frames, frame.bindings.All IsValue
  globals : e.globals.All Procedure.IsCode
  scopes : ∀ scope ∈ e.scopes, scope.All Procedure.IsCode

namespace Environment.Clean

variable {e : Environment} {name : String} {n : Node} {t : Table Node}

theorem current (h : e.Clean) : e.current.All IsValue := by
  cases hframes : e.frames with
  | nil =>
    simp only [Environment.current, hframes]
    exact h.dynamic
  | cons frame rest =>
    simp only [Environment.current, hframes]
    exact h.frames frame (hframes ▸ List.mem_cons_self)

theorem lookup (h : e.Clean) (hlookup : e.lookup name = some n) : IsValue n := by
  have houter : ∀ {m : Node}, (e.dynamic.get? name).or (e.constants.get? name) = some m →
      IsValue m := by
    intro m hm
    rcases Option.or_eq_some_iff.1 hm with hm | ⟨-, hm⟩
    · exact h.dynamic.of_get? hm
    · exact h.constants.of_get? hm
  unfold Environment.lookup at hlookup
  split at hlookup
  · next frame _ hframes =>
    rcases Option.or_eq_some_iff.1 hlookup with hm | ⟨-, hm⟩
    · exact (h.frames frame (hframes ▸ List.mem_cons_self)).of_get? hm
    · exact houter hm
  · exact houter hlookup

theorem setCurrent (h : e.Clean) (ht : t.All IsValue) : (e.setCurrent t).Clean := by
  cases hframes : e.frames with
  | nil =>
    simp only [Environment.setCurrent, hframes]
    exact { h with dynamic := ht, frames := List.forall_mem_nil _ }
  | cons frame rest =>
    simp only [Environment.setCurrent, hframes]
    have hrest := h.frames
    rw [hframes, List.forall_mem_cons] at hrest
    exact { h with frames := List.forall_mem_cons.2 ⟨ht, hrest.2⟩ }

theorem bind (h : e.Clean) (hn : IsValue n) : (e.bind name n).Clean :=
  h.setCurrent (h.current.insert hn)

theorem bindAll {captures : Captures} (h : e.Clean) (hcaptures : AreValues captures) :
    (e.bindAll captures).Clean :=
  h.setCurrent (h.current.insertAll hcaptures)

theorem unbind (h : e.Clean) : (e.unbind name).Clean :=
  h.setCurrent h.current.erase

theorem defineConstant {e' : Environment} (h : e.Clean) (hn : IsValue n)
    (hdefine : e.defineConstant name n = .ok e') : e'.Clean := by
  unfold Environment.defineConstant at hdefine
  split at hdefine
  · cases hdefine
  · cases hdefine
    exact { h with constants := h.constants.insert hn }

theorem defineProcedure {p : Procedure} (h : e.Clean) (hp : p.IsCode) :
    (e.defineProcedure name p).Clean := by
  cases hscopes : e.scopes with
  | nil =>
    simp only [Environment.defineProcedure, hscopes]
    exact { h with globals := h.globals.insert hp, scopes := List.forall_mem_nil _ }
  | cons scope rest =>
    simp only [Environment.defineProcedure, hscopes]
    have hall := h.scopes
    rw [hscopes, List.forall_mem_cons] at hall
    exact { h with scopes := List.forall_mem_cons.2 ⟨hall.1.insert hp, hall.2⟩ }

theorem procedure? {p : Procedure} (h : e.Clean) (hp : e.procedure? name = some p) : p.IsCode := by
  rcases Option.or_eq_some_iff.1 hp with hp | ⟨-, hp⟩
  · obtain ⟨scope, hscope, hp⟩ := List.exists_of_findSome?_eq_some hp
    exact (h.scopes scope hscope).of_get? hp
  · exact h.globals.of_get? hp

/-- Inside a call nothing but its arguments is bound anew. -/
theorem enter (h : e.Clean) (ht : t.All IsValue) : ((e.pushFrame name t).pushScope).Clean where
  constants := h.constants
  dynamic := h.dynamic
  frames := List.forall_mem_cons.2 ⟨ht, h.frames⟩
  globals := h.globals
  scopes := List.forall_mem_cons.2 ⟨List.forall_mem_nil _, h.scopes⟩

theorem leave (h : e.Clean) : (e.popScope.popFrame).Clean where
  constants := h.constants
  dynamic := h.dynamic
  frames frame hframe := h.frames frame (List.mem_of_mem_tail hframe)
  globals := h.globals
  scopes scope hscope := h.scopes scope (List.mem_of_mem_tail hscope)

end Environment.Clean

end ExprShell
