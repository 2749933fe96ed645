/-
Scopes. A name is looked up in the innermost call frame, then among the dynamic variables,
then among the constants; the frames of callers are never consulted. Bindings go to the
innermost frame, or to the dynamic variables where no procedure is active. Procedures live in
a stack of scopes above a global one.
-/
import ExprShell.Environment.Table
import ExprShell.Fault

namespace ExprShell

/-- A user procedure. -/
structure Procedure where
  params : List String
  body : List Node
  deriving Inhabited, Repr

/-- An active call of a user procedure. -/
structure Frame where
  procedure : String
  bindings : Table Node
  deriving Inhabited, Repr

/-- All that names can refer to. -/
structure Environment where
  /-- Set once and for all. -/
  constants : Table Node := []
  /-- Gone after a top-level evaluation. -/
  dynamic : Table Node := []
  /-- Active calls, the innermost first. -/
  frames : List Frame := []
  /-- Procedures defined outside all calls. -/
  globals : Table Procedure := []
  /-- Procedures defined inside active calls, the innermost scope first. -/
  scopes : List (Table Procedure) := []
  deriving Inhabited, Repr

namespace Environment

/-! ## Variables and constants -/

def lookup (e : Environment) (name : String) : Option Node :=
  match e.frames with
  | frame :: _ =>
    (frame.bindings.get? name).or ((e.dynamic.get? name).or (e.constants.get? name))
  | [] => (e.dynamic.get? name).or (e.constants.get? name)

/-- The bindings that `let` writes to. -/
def current (e : Environment) : Table Node :=
  match e.frames with
  | frame :: _ => frame.bindings
  | [] => e.dynamic

/-- The environment with other bindings where `let` writes to. -/
def setCurrent (e : Environment) (t : Table Node) : Environment :=
  match e.frames with
  | frame :: rest => { e with frames := { frame with bindings := t } :: rest }
  | [] => { e with dynamic := t }

def bind (e : Environment) (name : String) (value : Node) : Environment :=
  e.setCurrent (e.current.insert name value)

@[simp] theorem current_setCurrent (e : Environment) (t : Table Node) :
    (e.setCurrent t).current = t := by
  cases h : e.frames with
  | nil => simp [setCurrent, current, h]
  | cons frame rest => simp [setCurrent, current, h]

@[simp] theorem setCurrent_current (e : Environment) : e.setCurrent e.current = e := by
  obtain ⟨constants, dynamic, frames, globals, scopes⟩ := e
  cases frames with
  | _ => rfl

@[simp] theorem setCurrent_setCurrent (e : Environment) (t u : Table Node) :
    (e.setCurrent t).setCurrent u = e.setCurrent u := by
  obtain ⟨constants, dynamic, frames, globals, scopes⟩ := e
  cases frames with
  | _ => rfl

/-- Binding a name changes what exactly that name means. -/
theorem lookup_bind (e : Environment) (name other : String) (value : Node) :
    (e.bind name value).lookup other = if other = name then some value else e.lookup other := by
  cases h : e.frames with
  | nil =>
    by_cases h' : other = name
    · simp [bind, setCurrent, current, lookup, h, Table.get?_insert, h']
    · simp [bind, setCurrent, current, lookup, h, Table.get?_insert, h']
  | cons frame rest =>
    by_cases h' : other = name
    · simp [bind, setCurrent, current, lookup, h, Table.get?_insert, h']
    · simp [bind, setCurrent, current, lookup, h, Table.get?_insert, h']

/-- Binds several names in order. -/
def bindAll (e : Environment) (entries : List (String × Node)) : Environment :=
  e.setCurrent (e.current.insertAll entries)

theorem bindAll_eq_foldl (e : Environment) (entries : List (String × Node)) :
    e.bindAll entries = entries.foldl (fun e entry => e.bind entry.1 entry.2) e := by
  induction entries generalizing e with
  | nil => exact e.setCurrent_current
  | cons entry rest ih =>
    rw [List.foldl_cons, ← ih, bindAll, bindAll, bind, current_setCurrent, setCurrent_setCurrent]
    rfl

def unbind (e : Environment) (name : String) : Environment :=
  e.setCurrent (e.current.erase name)

def isConstant (e : Environment) (name : String) : Bool :=
  e.constants.contains name

/-- Adds a constant; one that is there cannot be set again. -/
def defineConstant (e : Environment) (name : String) (value : Node) :
    Except Fault Environment :=
  if e.isConstant name then .error (.constantReassignment name)
  else .ok { e with constants := e.constants.insert name value }

/-- A variable or constant of this name is visible. -/
def has (e : Environment) (name : String) : Bool :=
  (e.lookup name).isSome

/-- Adds a name to an increasing list of names. -/
def insertName (name : String) : List String → List String
  | [] => [name]
  | other :: rest =>
    if name < other then name :: other :: rest
    else if name = other then other :: rest
    else other :: insertName name rest

/-- The names that a look-up finds, in increasing order. -/
def visibleNames (e : Environment) : List String :=
  let innermost := match e.frames with
    | frame :: _ => frame.bindings.names
    | [] => []
  (e.constants.names ++ e.dynamic.names ++ innermost).foldr insertName []

/-! ## Calls -/

def pushFrame (e : Environment) (procedure : String) (bindings : Table Node) : Environment :=
  { e with frames := ⟨procedure, bindings⟩ :: e.frames }

def popFrame (e : Environment) : Environment :=
  { e with frames := e.frames.tail }

/-- The number of active calls. -/
def frameDepth (e : Environment) : Nat :=
  e.frames.length

/-- The name of the procedure that is running. -/
def currentProcedure? (e : Environment) : Option String :=
  e.frames.head?.map (·.procedure)

/-! ## Procedures -/

def pushScope (e : Environment) : Environment :=
  { e with scopes := [] :: e.scopes }

/-- Drops the innermost scope; the global one stays. -/
def popScope (e : Environment) : Environment :=
  { e with scopes := e.scopes.tail }

/-- Defines a procedure in the innermost scope. -/
def defineProcedure (e : Environment) (name : String) (p : Procedure) : Environment :=
  match e.scopes with
  | scope :: rest => { e with scopes := scope.insert name p :: rest }
  | [] => { e with globals := e.globals.insert name p }

/-- The procedure of a name, from the innermost scope that has one. -/
def procedure? (e : Environment) (name : String) : Option Procedure :=
  (e.scopes.findSome? (·.get? name)).or (e.globals.get? name)

def hasProcedure (e : Environment) (name : String) : Bool :=
  (e.procedure? name).isSome

/-- Ends a top-level evaluation: variables, frames and inner procedure scopes go. -/
def reset (e : Environment) : Environment :=
  { e with dynamic := [], frames := [], scopes := [] }

end Environment

end ExprShell
