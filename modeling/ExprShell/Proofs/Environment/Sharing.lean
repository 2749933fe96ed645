/-
Scopes up to what look-ups find in them. Two tables are the same map if every name has the same
value in both, in whatever order their entries stand (`Table.Same`); setting and erasing names keep
that. Two environments share constants, dynamic variables and procedure scopes if these are the same
maps (`Environment.Shared`). The names listed depend on nothing but what look-ups find
(`Environment.visibleNames_congr`).
-/
import Mathlib.Data.List.Forall2
import ExprShell.Proofs.Environment.Resolution
import ExprShell.Proofs.Eval.StackDiscipline

namespace ExprShell

/-! ## Tables -/

/-- Every name has the same value in both tables. -/
def Table.Same {α : Type} (t u : Table α) : Prop :=
  ∀ name, u.get? name = t.get? name

namespace Table.Same

variable {α : Type} {t u : Table α}

theorem refl (t : Table α) : t.Same t :=
  fun _ => rfl

/-- The order of two entries of different names does not matter. -/
theorem swap {a b : String × α} (h : a.1 ≠ b.1) (t : Table α) :
    Table.Same (a :: b :: t) (b :: a :: t) := by
  intro name
  simp only [get?_cons]
  by_cases ha : name = a.1
  · simp [ha, h]
  · simp [ha]

theorem contains (h : t.Same u) (name : String) : u.contains name = t.contains name := by
  rw [Table.contains, Table.contains, h]

theorem erase (h : t.Same u) (name : String) : (t.erase name).Same (u.erase name) := by
  intro other
  rw [get?_erase, get?_erase, h]

theorem insert (h : t.Same u) (name : String) (value : α) :
    (t.insert name value).Same (u.insert name value) := by
  intro other
  rw [get?_insert, get?_insert, h]

theorem insertAll (h : t.Same u) (entries : List (String × α)) :
    (t.insertAll entries).Same (u.insertAll entries) := by
  unfold Table.insertAll
  induction entries generalizing t u with
  | nil => exact h
  | cons entry rest ih => exact ih (h.insert entry.1 entry.2)

/-- The innermost table of a stack that has a name is the same. -/
theorem findSome? {ts us : List (Table α)} (h : List.Forall₂ Table.Same ts us) (name : String) :
    us.findSome? (·.get? name) = ts.findSome? (·.get? name) := by
  induction h with
  | nil => rfl
  | cons hfirst _ ih => rw [List.findSome?_cons, List.findSome?_cons, hfirst, ih]

end Table.Same

/-! ## Environments -/

namespace Environment

/-- Names are listed alike where they are looked up alike. -/
theorem visibleNames_congr {e e' : Environment} (h : ∀ name, e'.lookup name = e.lookup name) :
    e'.visibleNames = e.visibleNames := by
  have hincreasing (e : Environment) : e.visibleNames.Pairwise (· < ·) :=
    foldr_insertName_increasing _
  have hne {a b : String} (hlt : a < b) : a ≠ b := by
    rintro rfl
    exact String.lt_irrefl a hlt
  have hnodup (e : Environment) : e.visibleNames.Nodup := (hincreasing e).imp hne
  refine List.Perm.eq_of_pairwise ?_ (hincreasing e') (hincreasing e) ?_
  · exact fun a b _ _ hab hba => absurd (String.lt_trans hab hba) (String.lt_irrefl a)
  · refine (List.perm_ext_iff_of_nodup (hnodup e') (hnodup e)).2 fun name => ?_
    rw [mem_visibleNames, mem_visibleNames, h]

/-- The same constants, dynamic variables and procedure scopes, whatever the frames. -/
structure Shared (e e' : Environment) : Prop where
  constants : e.constants.Same e'.constants
  dynamic : e.dynamic.Same e'.dynamic
  globals : e.globals.Same e'.globals
  scopes : List.Forall₂ Table.Same e.scopes e'.scopes

namespace Shared

variable {e e' : Environment}

theorem refl (e : Environment) : Shared e e :=
  ⟨.refl _, .refl _, .refl _, List.forall₂_same.2 fun t _ => .refl t⟩

theorem ofScopes (hconstants : e.constants.Same e'.constants) (hdynamic : e.dynamic.Same e'.dynamic)
    (hscopes : List.Forall₂ Table.Same e.procedureScopes e'.procedureScopes) : Shared e e' := by
  have hreversed := List.forall₂_reverse_iff.2 hscopes
  simp only [procedureScopes, List.reverse_append, List.reverse_singleton, List.singleton_append,
    List.forall₂_cons, List.forall₂_reverse_iff] at hreversed
  exact ⟨hconstants, hdynamic, hreversed.1, hreversed.2⟩

theorem procedure? (h : Shared e e') (name : String) : e'.procedure? name = e.procedure? name := by
  rw [Environment.procedure?, Environment.procedure?, Table.Same.findSome? h.scopes, h.globals]

theorem defineProcedure (h : Shared e e') (name : String) (p : Procedure) :
    Shared (e.defineProcedure name p) (e'.defineProcedure name p) := by
  have hscopes := h.scopes
  unfold Environment.defineProcedure
  cases hs : e.scopes with
  | nil =>
    rw [hs, List.forall₂_nil_left_iff] at hscopes
    rw [hscopes]
    exact { h with globals := h.globals.insert name p, scopes := List.Forall₂.nil }
  | cons scope rest =>
    rw [hs, List.forall₂_cons_left_iff] at hscopes
    obtain ⟨scope', rest', hfirst, hrest, hs'⟩ := hscopes
    rw [hs']
    exact { h with scopes := List.Forall₂.cons (hfirst.insert name p) hrest }

/-- Entering a call. -/
theorem push (h : Shared e e') (name : String) (bindings : Table Node) :
    Shared (e.pushFrame name bindings).pushScope (e'.pushFrame name bindings).pushScope :=
  { h with scopes := List.Forall₂.cons (.refl []) h.scopes }

/-- Leaving it. -/
theorem pop (h : Shared e e') : Shared e.popScope.popFrame e'.popScope.popFrame := by
  have hscopes : List.Forall₂ Table.Same e.scopes.tail e'.scopes.tail := by
    rw [← List.drop_one, ← List.drop_one]
    exact List.forall₂_drop 1 h.scopes
  exact { h with scopes := hscopes }

end Shared

end Environment

end ExprShell
