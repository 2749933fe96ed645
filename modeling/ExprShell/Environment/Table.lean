/-
Finite maps from names, as association lists with one entry per name.
-/

namespace ExprShell

/-- A finite map from names. -/
abbrev Table (α : Type) := List (String × α)

namespace Table

variable {α : Type}

def get? (t : Table α) (name : String) : Option α :=
  List.lookup name t

def contains (t : Table α) (name : String) : Bool :=
  (t.get? name).isSome

def erase (t : Table α) (name : String) : Table α :=
  t.filter fun entry => entry.1 != name

/-- The map with a name set, whether it was there or not. -/
def insert (t : Table α) (name : String) (value : α) : Table α :=
  (name, value) :: t.erase name

/-- Sets several names in order, so that the last value of a name stays. -/
def insertAll (t : Table α) (entries : List (String × α)) : Table α :=
  entries.foldl (fun t entry => t.insert entry.1 entry.2) t

def names (t : Table α) : List String :=
  t.map (·.1)

@[simp] theorem get?_nil (name : String) : get? ([] : Table α) name = none := rfl

theorem get?_cons (entry : String × α) (t : Table α) (name : String) :
    get? (entry :: t) name = if name = entry.1 then some entry.2 else t.get? name := by
  obtain ⟨key, value⟩ := entry
  by_cases h : name = key
  · simp [get?, h]
  · have hb : (name == key) = false := by simpa using h
    simp [get?, List.lookup_cons, h, hb]

/-- Erasing a name hides exactly that name. -/
theorem get?_erase (t : Table α) (name other : String) :
    (t.erase name).get? other = if other = name then none else t.get? other := by
  induction t with
  | nil => simp [erase]
  | cons entry rest ih =>
    by_cases h : entry.1 = name
    · have : erase (entry :: rest) name = erase rest name := by simp [erase, h]
      rw [this, ih, get?_cons]
      by_cases h' : other = name
      · simp [h']
      · simp [h', h]
    · have : erase (entry :: rest) name = entry :: erase rest name := by simp [erase, h]
      rw [this, get?_cons, ih, get?_cons]
      by_cases h' : other = entry.1
      · simp [h', h]
      · simp [h']

/-- Setting a name changes exactly that name. -/
theorem get?_insert (t : Table α) (name other : String) (value : α) :
    (t.insert name value).get? other = if other = name then some value else t.get? other := by
  rw [insert, get?_cons, get?_erase]
  by_cases h : other = name
  · simp [h]
  · simp [h]

end Table

end ExprShell
