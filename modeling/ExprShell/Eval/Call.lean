/-
Calls with evaluated arguments. What a callee means is found out first, from the scopes and
the host; then it is called. An alias leads to a builtin, a procedure or a tool in one step,
so names that refer to each other cannot loop, and `apply`, `map` and `filter` call on parts
of their own arguments only.
-/
import ExprShell.Eval.Setup
import ExprShell.Node.Expression

namespace ExprShell

/-- What a call comes down to. -/
inductive Callee where
  | builtin (b : Builtin)
  | procedure (name : String) (p : Procedure)
  | tool (t : Tool)
  | program (path : String)
  /-- No call at all: a bound value without arguments. -/
  | value (n : Node)
  deriving Inhabited, Repr

namespace Callee

variable {σ : Type}

/-- The name of a function that is called without one. -/
def anonymous : String := "lambda"

/-- The builtin, procedure or tool of a name. -/
def ofCallable? (setup : Setup σ) (env : Environment) (name : String) : Option Callee :=
  match Builtin.ofName? name with
  | some b => some (.builtin b)
  | none =>
    match env.procedure? name with
    | some p => some (.procedure name p)
    | none => (Tool.find? setup.tools name).map .tool

/-- The name that a bound value passes calls on to. -/
def aliasOf? : Node → Option String
  | .defunc _ name | .identifier _ name => some name
  | _ => none

/-- The program of a name. -/
def ofProgram (setup : Setup σ) (s : State σ) (name : String) : Except Fault Callee :=
  match setup.program? s.host name with
  | some path => .ok (.program path)
  | none => .error (.unboundProcedure name)

/-- What a bound value means in a call: a function is called, an alias of a callable passes
the call on, and any other value stands for itself unless it has arguments or shares its name
with a program. -/
def ofBound (setup : Setup σ) (s : State σ) (name : String) (bound : Node) (bare : Bool) :
    Except Fault Callee :=
  match bound with
  | .function _ params body => .ok (.procedure anonymous ⟨params, body⟩)
  | bound =>
    match (aliasOf? bound).bind (ofCallable? setup s.env) with
    | some callee => .ok callee
    | none =>
      if bare && (setup.program? s.host name).isNone then .ok (.value bound)
      else ofProgram setup s name

/-- What a name means in a call, `bare` if without arguments. -/
def ofName (setup : Setup σ) (s : State σ) (name : String) (bare : Bool) :
    Except Fault Callee :=
  match ofCallable? setup s.env name with
  | some callee => .ok callee
  | none =>
    match s.env.lookup name with
    | some bound => ofBound setup s name bound bare
    | none => ofProgram setup s name

/-- What a value means in a call. -/
def ofNode (setup : Setup σ) (s : State σ) (n : Node) (bare : Bool) : Except Fault Callee :=
  match n with
  | .function _ params body => .ok (.procedure anonymous ⟨params, body⟩)
  | .defunc _ name | .identifier _ name | .operator _ name | .string _ name =>
    ofName setup s name bare
  | n => .error (.wrongKind "a procedure" n)

end Callee

namespace Eval

variable {σ : Type}

/-! ## Builtins that run other code -/

/-- The code that a value stands for. -/
def codeOf (setup : Setup σ) : Node → Except Fault (List Node)
  | .string _ source => setup.read source
  | .rawAst _ node => .ok [node]
  | .list s items =>
    if s.quoted then .ok [(Node.list s items).toExpression] else .ok [.list s items]
  | n => .ok [n]

/-- Evaluates what a value stands for; a fault becomes a value. -/
def evalValue (setup : Setup σ) (re : Reentry σ) (n : Node) : Eval σ Node := do
  match codeOf setup n with
  | .error f => return .error {} f.message
  | .ok code =>
    match ← attempt (re.run code) with
    | .ok value => return value
    | .error (.fault f) => return .error {} f.message
    | .error h => halt h

/-- One expression as it is, any other number of them in sequence. -/
def asOne : List Node → Node
  | [n] => n
  | nodes => .call (.operator {} Builtin.sequence.name :: nodes)

/-- The expression that a source text spells, held back. -/
def readValue (setup : Setup σ) (n : Node) : Except Fault Node := do
  let source ← n.asString
  let nodes ← setup.read source
  return .rawAst {} (asOne nodes)

/-- Runs a source file where the evaluation stands; faults name the file. -/
def loadFile (setup : Setup σ) (re : Reentry σ) (path : String) : Eval σ Node := do
  match ← askHost (setup.host.readFile · path) with
  | .error reason => fail (.load path (.runtime (.unreadable reason)))
  | .ok source =>
    match setup.read source with
    | .error f => fail (.load path f)
    | .ok code =>
      match ← attempt (re.run code) with
      | .ok value => return value
      | .error (.fault f) => fail (.load path f)
      | .error h => halt h

/-! ## Other builtins -/

/-- Ends the evaluation with a status, 0 if none is given. -/
def exitWith (leave : Nat → Eval σ Node) : List Node → Eval σ Node
  | [] => leave 0
  | [n] => do
    let status ← ofExcept n.asNumber
    if 0 ≤ status.value && status.value ≤ 255 then leave status.value.toNat
    else fail (.invalidArguments Builtin.exit.name (.exitStatus status.value))
  | args => fail (.arity Builtin.exit.name 1 args.length)

/-- The last of several values, false if there is none. -/
def lastValue (args : List Node) : Node :=
  args.getLast?.getD (.ofBool false)

/-! ## Calls -/

/-- One item weighs no more than a list that starts with it. -/
theorem measure_item (item : Node) (rest : List Node) :
    3 * sizeOf [item] + 1 < 3 * sizeOf (item :: rest) + 2 := by
  cases rest with
  | nil => simp only [List.cons.sizeOf_spec, List.nil.sizeOf_spec]; omega
  | cons next others => simp only [List.cons.sizeOf_spec, List.nil.sizeOf_spec]; omega

theorem measure_rest (item : Node) (rest : List Node) :
    3 * sizeOf rest + 2 < 3 * sizeOf (item :: rest) + 2 := by
  simp only [List.cons.sizeOf_spec]
  omega

mutual

/-- Calls what a callee came down to. -/
def call (setup : Setup σ) (re : Reentry σ) (callee : Callee) (args : List Node) :
    Eval σ Node :=
  match callee with
  | .value n => pure n
  | .procedure name p => re.invoke name p args
  | .tool t => t.call setup.host setup.settings.searchPath args
  | .program path => setup.runShown [{ program := path, args := Node.argumentsOf args }] none
  | .builtin .sequence => pure (lastValue args)
  | .builtin .exit => exitWith re.leave args
  | .builtin .typeof =>
    match args with
    | [n] => pure (.ofString n.kind.name)
    | args => fail (.arity Builtin.typeof.name 1 args.length)
  | .builtin .eval =>
    match args with
    | [n] => evalValue setup re n
    | args => fail (.arity Builtin.eval.name 1 args.length)
  | .builtin .parse =>
    match args with
    | [n] => ofExcept (readValue setup n)
    | args => fail (.arity Builtin.parse.name 1 args.length)
  | .builtin .load =>
    match args with
    | [path] => loadFile setup re path.plain
    | args => fail (.arity Builtin.load.name 1 args.length)
  | .builtin .map =>
    match args with
    | [f, .list _ items] => do
      let results ← mapItems setup re f items
      return .data results
    | [_, other] => fail (.wrongKind "list" other)
    | args => fail (.arity Builtin.map.name 2 args.length)
  | .builtin .filter =>
    match args with
    | [f, .list _ items] => do
      let kept ← filterItems setup re f items
      return .data kept
    | [_, other] => fail (.wrongKind "list" other)
    | args => fail (.arity Builtin.filter.name 2 args.length)
  | .builtin .apply =>
    match args with
    | [f, .list _ items] => callNode setup re f items
    | [_, other] => fail (.wrongKind "list" other)
    | args => fail (.arity Builtin.apply.name 2 args.length)
termination_by 3 * sizeOf args

/-- Calls what a value means. -/
def callNode (setup : Setup σ) (re : Reentry σ) (f : Node) (args : List Node) :
    Eval σ Node := fun s =>
  match Callee.ofNode setup s f args.isEmpty with
  | .ok callee => call setup re callee args s
  | .error fault => fail fault s
termination_by 3 * sizeOf args + 1

/-- The results of a value called on each item. -/
def mapItems (setup : Setup σ) (re : Reentry σ) (f : Node) (items : List Node) :
    Eval σ (List Node) :=
  match items with
  | [] => pure []
  | item :: rest => do
    let result ← callNode setup re f [item]
    let results ← mapItems setup re f rest
    return result :: results
termination_by 3 * sizeOf items + 2
decreasing_by
  · exact measure_item item rest
  · exact measure_rest item rest

/-- The items on which a value called gives something true. -/
def filterItems (setup : Setup σ) (re : Reentry σ) (f : Node) (items : List Node) :
    Eval σ (List Node) :=
  match items with
  | [] => pure []
  | item :: rest => do
    let result ← callNode setup re f [item]
    let kept ← filterItems setup re f rest
    return if result.isTruthy then item :: kept else kept
termination_by 3 * sizeOf items + 2
decreasing_by
  · exact measure_item item rest
  · exact measure_rest item rest

end

/-- Calls what a name means. -/
def callNamed (setup : Setup σ) (re : Reentry σ) (name : String) (args : List Node) :
    Eval σ Node := fun s =>
  match Callee.ofName setup s name args.isEmpty with
  | .ok callee => call setup re callee args s
  | .error fault => fail fault s

end Eval

end ExprShell
