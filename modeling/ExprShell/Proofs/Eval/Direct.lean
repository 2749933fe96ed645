/-
Evaluation as plain recursion. Here every function calls the others as it needs them: a name
that stands for another one is called by calling that one, `apply` calls what it is given, a
procedure runs its body wherever fewer frames are active than the settings allow, and `eval` and
`load` run programs. Nothing in it makes the recursion end, so each call says how deep it may go
on, its fuel, and has no outcome where that is not enough. A run ends if it has an outcome with all
fuel from some amount on, and goes on forever if it has none with any.

A limit on how deep `eval` and `load` nest is part of the recursion: with `some k` the next nested
one after `k` halts, and with `none` there is no limit.
-/
import ExprShell.Session

namespace ExprShell

variable {σ : Type}

/-- A computation that need not end. -/
abbrev Direct (σ α : Type) := ExceptT Halt (StateT (State σ) Option) α

namespace Direct

/-- A computation that ends. -/
def lift {α : Type} (x : Eval σ α) : Direct σ α :=
  fun s => some (x s)

def fail {α : Type} (f : Fault) : Direct σ α :=
  lift (Eval.fail f)

/-- The recursion goes deeper than it may. -/
def unfinished {α : Type} : Direct σ α :=
  fun _ => none

/-- The name is one of a builtin, a procedure or a tool. -/
def isCallable (setup : Setup σ) (env : Environment) (name : String) : Bool :=
  (Builtin.ofName? name).isSome || env.hasProcedure name || (Tool.find? setup.tools name).isSome

/-- The last resort of a call by name: the program of that name, or, without arguments, the
value bound to it. -/
def callProgram (setup : Setup σ) (name : String) (bound? : Option Node) (args : List Node) :
    Eval σ Node := fun s =>
  match setup.program? s.host name with
  | some path =>
    setup.runShown [{ program := path, args := Node.argumentsOf args }] none s
  | none =>
    match bound?, args with
    | some bound, [] => (.ok bound, s)
    | _, _ => Eval.fail (.unboundProcedure name) s

mutual

/-- Evaluates a node. -/
def evalNode (setup : Setup σ) (limit : Option Nat) (fuel : Nat) (n : Node) : Direct σ Node :=
  match fuel with
  | 0 => unfinished
  | fuel + 1 =>
    match n with
    | .list s items =>
      if s.quoted then pure (.list s items) else evalCall setup limit fuel items
    | n => lift (Eval.evalLeaf n)

/-- Evaluates arguments from left to right. -/
def evalArgs (setup : Setup σ) (limit : Option Nat) (fuel : Nat) (args : List Node) :
    Direct σ (List Node) :=
  match fuel with
  | 0 => unfinished
  | fuel + 1 =>
    match args with
    | [] => pure []
    | n :: rest => do
      let value ← evalNode setup limit fuel n
      let values ← evalArgs setup limit fuel rest
      return value :: values

/-- Evaluates expressions in order, after one with the value given. -/
def evalSequence (setup : Setup σ) (limit : Option Nat) (fuel : Nat) (last : Node)
    (program : List Node) : Direct σ Node :=
  match fuel with
  | 0 => unfinished
  | fuel + 1 =>
    match program with
    | [] => pure last
    | n :: rest => do
      let value ← evalNode setup limit fuel n
      evalSequence setup limit fuel value rest

/-- Evaluates a call. -/
def evalCall (setup : Setup σ) (limit : Option Nat) (fuel : Nat) (items : List Node) :
    Direct σ Node :=
  match fuel with
  | 0 => unfinished
  | fuel + 1 =>
    match items with
    | [] => fail (.runtime .emptyCall)
    | .operator _ name :: args =>
      match Form.ofName? name with
      | some form => evalForm setup limit fuel form args
      | none => do
        let values ← evalArgs setup limit fuel args
        callNamed setup limit fuel name values
    | .function _ params body :: args => do
      let values ← evalArgs setup limit fuel args
      invoke setup limit fuel Callee.anonymous ⟨params, body⟩ values
    | head :: args =>
      if head.isData then do
        let command ← evalStage setup limit fuel [] (head :: args)
        lift (setup.runShown [command] none)
      else do
        let f ← evalNode setup limit fuel head
        let values ← evalArgs setup limit fuel args
        callNode setup limit fuel f values

/-- Evaluates a special form. -/
def evalForm (setup : Setup σ) (limit : Option Nat) (fuel : Nat) (form : Form) (args : List Node) :
    Direct σ Node :=
  match fuel with
  | 0 => unfinished
  | fuel + 1 =>
    match form with
    | .binding => evalLet setup limit fuel args
    | .conditional => evalIf setup limit fuel args
    | .conjunction => evalEvery setup limit fuel args
    | .disjunction => evalSome setup limit fuel args
    | .defined => lift (Eval.evalDefined setup args)
    | .clauses => evalClauses setup limit fuel args
    | .selection => evalMatch setup limit fuel args
    | .hereString => evalHereString setup limit fuel args
    | .pipeline => do
      let commands ← evalPipeline setup limit fuel args
      lift (setup.runShown commands none)
    | .substitution => evalSubstitution setup limit fuel args

/-- Binds a variable, a procedure or a constant. -/
def evalLet (setup : Setup σ) (limit : Option Nat) (fuel : Nat) (args : List Node) :
    Direct σ Node :=
  match fuel with
  | 0 => unfinished
  | fuel + 1 =>
    match args with
    | [flag, name, n] =>
      if flag.symbol? = some "global" then do
        let name ← lift (Eval.ofExcept (Eval.bindingName name))
        lift (Eval.checkConstant name)
        let value ← evalNode setup limit fuel n
        lift (Eval.setConstant name value)
      else fail (.arity Form.binding.name 2 3)
    | [name, n] => do
      let name ← lift (Eval.ofExcept (Eval.bindingName name))
      let value ← evalNode setup limit fuel n
      lift (Eval.setVariable name value)
    | args => fail (.arity Form.binding.name 2 args.length)

/-- Evaluates one of two branches. -/
def evalIf (setup : Setup σ) (limit : Option Nat) (fuel : Nat) (args : List Node) : Direct σ Node :=
  match fuel with
  | 0 => unfinished
  | fuel + 1 =>
    match args with
    | [test, yes] => do
      let value ← evalNode setup limit fuel test
      if value.isTruthy then evalNode setup limit fuel yes else pure (.ofBool false)
    | [test, yes, no] => do
      let value ← evalNode setup limit fuel test
      if value.isTruthy then evalNode setup limit fuel yes else evalNode setup limit fuel no
    | args => fail (.arity Form.conditional.name 3 args.length)

/-- All arguments are true. -/
def evalEvery (setup : Setup σ) (limit : Option Nat) (fuel : Nat) (args : List Node) :
    Direct σ Node :=
  match fuel with
  | 0 => unfinished
  | fuel + 1 =>
    match args with
    | [] => pure (.ofBool true)
    | n :: rest => do
      let value ← evalNode setup limit fuel n
      if value.isTruthy then evalEvery setup limit fuel rest else pure (.ofBool false)

/-- Some argument is true. -/
def evalSome (setup : Setup σ) (limit : Option Nat) (fuel : Nat) (args : List Node) :
    Direct σ Node :=
  match fuel with
  | 0 => unfinished
  | fuel + 1 =>
    match args with
    | [] => pure (.ofBool false)
    | n :: rest => do
      let value ← evalNode setup limit fuel n
      if value.isTruthy then pure (.ofBool true) else evalSome setup limit fuel rest

/-- Evaluates the body of the first clause whose test is true. -/
def evalClauses (setup : Setup σ) (limit : Option Nat) (fuel : Nat) (args : List Node) :
    Direct σ Node :=
  match fuel with
  | 0 => unfinished
  | fuel + 1 =>
    match args with
    | [] => pure (.ofBool false)
    | .list _ [test, body] :: rest => do
      let value ← evalNode setup limit fuel test
      if value.isTruthy then evalNode setup limit fuel body else evalClauses setup limit fuel rest
    | .list _ items :: _ => fail (.runtime (.badBranch items.length))
    | n :: _ => fail (.wrongKind "list" n)

/-- Evaluates a scrutinee and then the first branch whose pattern matches it. -/
def evalMatch (setup : Setup σ) (limit : Option Nat) (fuel : Nat) (args : List Node) :
    Direct σ Node :=
  match fuel with
  | 0 => unfinished
  | fuel + 1 =>
    match args with
    | [] => fail (.runtime .missingScrutinee)
    | n :: branches => do
      let scrutinee ← evalNode setup limit fuel n
      evalBranches setup limit fuel scrutinee branches

/-- Evaluates the body of the first branch whose pattern matches. -/
def evalBranches (setup : Setup σ) (limit : Option Nat) (fuel : Nat) (scrutinee : Node)
    (branches : List Node) : Direct σ Node :=
  match fuel with
  | 0 => unfinished
  | fuel + 1 =>
    match branches with
    | [] => pure (.ofBool false)
    | .list _ [pattern, body] :: rest => do
      match ← evalPattern setup limit fuel scrutinee pattern with
      | some captures =>
        lift (Eval.modifyEnv (·.bindAll captures))
        evalNode setup limit fuel body
      | none => evalBranches setup limit fuel scrutinee rest
    | .list _ items :: _ => fail (.runtime (.badBranch items.length))
    | n :: _ => fail (.wrongKind "list" n)

/-- Matches the scrutinee with a pattern. -/
def evalPattern (setup : Setup σ) (limit : Option Nat) (fuel : Nat) (scrutinee pattern : Node) :
    Direct σ (Option Captures) :=
  match fuel with
  | 0 => unfinished
  | fuel + 1 =>
    match pattern with
    | .list s [head, operand] =>
      if s.quoted then pure (Node.matches? (.list s [head, operand]) scrutinee)
      else
        match Relation.ofHead? head with
        | some r => do
          let value ← evalNode setup limit fuel operand
          lift (Eval.ofExcept (r.test none scrutinee value))
        | none => evalEquality setup limit fuel scrutinee (.list s [head, operand])
    | .list s [head, capture, operand] =>
      if s.quoted then pure (Node.matches? (.list s [head, capture, operand]) scrutinee)
      else
        match Relation.ofHead? head with
        | some r => do
          let value ← evalNode setup limit fuel operand
          lift (Eval.ofExcept (r.test (some capture) scrutinee value))
        | none =>
          if head.operatorName? = some "cons" then do
            let captures ← lift (Eval.ofExcept (Node.destructure scrutinee capture operand))
            return some captures
          else evalEquality setup limit fuel scrutinee (.list s [head, capture, operand])
    | .list s items =>
      if s.quoted then pure (Node.matches? (.list s items) scrutinee)
      else evalEquality setup limit fuel scrutinee (.list s items)
    | n =>
      if n.isWildcard then pure (some [("_", scrutinee)])
      else evalEquality setup limit fuel scrutinee n

/-- Matches the scrutinee with the value of a pattern. -/
def evalEquality (setup : Setup σ) (limit : Option Nat) (fuel : Nat) (scrutinee pattern : Node) :
    Direct σ (Option Captures) :=
  match fuel with
  | 0 => unfinished
  | fuel + 1 => do
    let value ← evalNode setup limit fuel pattern
    return if value.same scrutinee then some [] else none

/-- Feeds a text to commands. -/
def evalHereString (setup : Setup σ) (limit : Option Nat) (fuel : Nat) (args : List Node) :
    Direct σ Node :=
  match fuel with
  | 0 => unfinished
  | fuel + 1 =>
    match args with
    | [text, n] => do
      let text ← evalNode setup limit fuel text
      let commands ← evalCommands setup limit fuel n
      lift (setup.runShown commands (some text.plain))
    | args => fail (.arity Form.hereString.name 2 args.length)

/-- The output of commands: those of a single call, or the one that is spelled out. -/
def evalSubstitution (setup : Setup σ) (limit : Option Nat) (fuel : Nat) (args : List Node) :
    Direct σ Node :=
  match fuel with
  | 0 => unfinished
  | fuel + 1 =>
    match args with
    | [] => fail (.arity Form.substitution.name 1 0)
    | n :: rest =>
      if rest.isEmpty && n.isCall then do
        let commands ← evalCommands setup limit fuel n
        lift (Eval.capture setup commands)
      else do
        let command ← evalStage setup limit fuel [] (n :: rest)
        lift (Eval.capture setup [command])

/-- A single command, or those of a pipeline. -/
def evalCommands (setup : Setup σ) (limit : Option Nat) (fuel : Nat) (n : Node) :
    Direct σ (List Command) :=
  match fuel with
  | 0 => unfinished
  | fuel + 1 =>
    match n with
    | .list s (head :: rest) =>
      if s.quoted then fail (.mistyped "a command" Kind.list.name)
      else if head.operatorName? = some Form.pipeline.name then evalPipeline setup limit fuel rest
      else do
        let command ← evalStage setup limit fuel [] (head :: rest)
        return [command]
    | n => fail (.wrongKind "a command" n)

/-- The commands of a pipeline, of which there has to be one. -/
def evalPipeline (setup : Setup σ) (limit : Option Nat) (fuel : Nat) (args : List Node) :
    Direct σ (List Command) :=
  match fuel with
  | 0 => unfinished
  | fuel + 1 =>
    match args with
    | [] => fail (.runtime .emptyPipeline)
    | n :: rest => evalStages setup limit fuel (n :: rest)

/-- The commands of several calls. -/
def evalStages (setup : Setup σ) (limit : Option Nat) (fuel : Nat) (args : List Node) :
    Direct σ (List Command) :=
  match fuel with
  | 0 => unfinished
  | fuel + 1 =>
    match args with
    | [] => pure []
    | n :: rest => do
      let command ← evalCommand setup limit fuel n
      let commands ← evalStages setup limit fuel rest
      return command :: commands

/-- The command of a call. -/
def evalCommand (setup : Setup σ) (limit : Option Nat) (fuel : Nat) (n : Node) : Direct σ Command :=
  match fuel with
  | 0 => unfinished
  | fuel + 1 =>
    match n with
    | .list s (head :: rest) =>
      if s.quoted then fail (.mistyped "a command" Kind.list.name)
      else evalStage setup limit fuel [] (head :: rest)
    | n => fail (.wrongKind "a command" n)

/-- A command: quoted lists of variables, the name of a program, and its arguments. -/
def evalStage (setup : Setup σ) (limit : Option Nat) (fuel : Nat) (overrides items : List Node) :
    Direct σ Command :=
  match fuel with
  | 0 => unfinished
  | fuel + 1 =>
    match items with
    | [] => fail (.runtime .overridesWithoutCommand)
    | head :: rest =>
      if head.isData then evalStage setup limit fuel (overrides ++ [head]) rest
      else do
        let env ← lift (Eval.ofExcept (Command.overrides overrides))
        let name ← evalName setup limit fuel head
        let program ← lift (Eval.programPath setup name)
        let values ← evalArgs setup limit fuel rest
        return { program, args := Node.argumentsOf values, env }

/-- The name of a program. -/
def evalName (setup : Setup σ) (limit : Option Nat) (fuel : Nat) (n : Node) : Direct σ String :=
  match fuel with
  | 0 => unfinished
  | fuel + 1 =>
    match n with
    | .operator _ name => pure name
    | n => do
      let value ← evalNode setup limit fuel n
      return value.plain

/-- Calls what a name means: a builtin, a procedure or a tool, then what is bound to it, and a
program last. A name bound to a name that can be called passes the call on. -/
def callNamed (setup : Setup σ) (limit : Option Nat) (fuel : Nat) (name : String)
    (args : List Node) : Direct σ Node :=
  match fuel with
  | 0 => unfinished
  | fuel + 1 => fun s =>
    match Builtin.ofName? name with
    | some b => callBuiltin setup limit fuel b args s
    | none =>
      match s.env.procedure? name with
      | some p => invoke setup limit fuel name p args s
      | none =>
        match Tool.find? setup.tools name with
        | some t => lift (t.call setup.host setup.settings.searchPath args) s
        | none =>
          match s.env.lookup name with
          | some (.function stamp params body) =>
            callNode setup limit fuel (.function stamp params body) args s
          | some bound =>
            match Callee.aliasOf? bound with
            | some target =>
              if isCallable setup s.env target then callNamed setup limit fuel target args s
              else lift (callProgram setup name (some bound) args) s
            | none => lift (callProgram setup name (some bound) args) s
          | none => lift (callProgram setup name none args) s

/-- Calls what a value means. -/
def callNode (setup : Setup σ) (limit : Option Nat) (fuel : Nat) (f : Node) (args : List Node) :
    Direct σ Node :=
  match fuel with
  | 0 => unfinished
  | fuel + 1 =>
    match f with
    | .function _ params body => invoke setup limit fuel Callee.anonymous ⟨params, body⟩ args
    | .defunc _ name | .identifier _ name | .operator _ name | .string _ name =>
      callNamed setup limit fuel name args
    | n => fail (.wrongKind "a procedure" n)

/-- Runs the body of a procedure in a frame and a procedure scope of its own, both gone
afterwards, unless as many frames are active as the settings allow. -/
def invoke (setup : Setup σ) (limit : Option Nat) (fuel : Nat) (name : String) (p : Procedure)
    (args : List Node) : Direct σ Node :=
  match fuel with
  | 0 => unfinished
  | fuel + 1 => fun s =>
    if p.params.length ≠ args.length then
      fail (.arity name p.params.length args.length) s
    else if setup.settings.maxDepth ≤ s.env.frameDepth then
      fail (.recursionLimit setup.settings.maxDepth) s
    else do
      let bindings := Table.insertAll [] (p.params.zip args)
      let inner : State σ := { s with env := (s.env.pushFrame name bindings).pushScope }
      let (r, s) ← evalSequence setup limit fuel (.ofBool false) p.body inner
      return (r, { s with env := s.env.popScope.popFrame })

/-- Calls a builtin. -/
def callBuiltin (setup : Setup σ) (limit : Option Nat) (fuel : Nat) (b : Builtin)
    (args : List Node) : Direct σ Node :=
  match fuel with
  | 0 => unfinished
  | fuel + 1 =>
    match b with
    | .sequence => pure (Eval.lastValue args)
    | .exit => lift (Eval.exitWith (fun status => Eval.halt (.exit status)) args)
    | .typeof =>
      match args with
      | [n] => pure (.ofString n.kind.name)
      | args => fail (.arity Builtin.typeof.name 1 args.length)
    | .eval =>
      match args with
      | [n] => evalValue setup limit fuel n
      | args => fail (.arity Builtin.eval.name 1 args.length)
    | .parse =>
      match args with
      | [n] => lift (Eval.ofExcept (Eval.readValue setup n))
      | args => fail (.arity Builtin.parse.name 1 args.length)
    | .load =>
      match args with
      | [path] => loadFile setup limit fuel path.plain
      | args => fail (.arity Builtin.load.name 1 args.length)
    | .map =>
      match args with
      | [f, .list _ items] => do
        let results ← mapItems setup limit fuel f items
        return .data results
      | [_, other] => fail (.wrongKind "list" other)
      | args => fail (.arity Builtin.map.name 2 args.length)
    | .filter =>
      match args with
      | [f, .list _ items] => do
        let kept ← filterItems setup limit fuel f items
        return .data kept
      | [_, other] => fail (.wrongKind "list" other)
      | args => fail (.arity Builtin.filter.name 2 args.length)
    | .apply =>
      match args with
      | [f, .list _ items] => callNode setup limit fuel f items
      | [_, other] => fail (.wrongKind "list" other)
      | args => fail (.arity Builtin.apply.name 2 args.length)

/-- The results of a value called on each item. -/
def mapItems (setup : Setup σ) (limit : Option Nat) (fuel : Nat) (f : Node) (items : List Node) :
    Direct σ (List Node) :=
  match fuel with
  | 0 => unfinished
  | fuel + 1 =>
    match items with
    | [] => pure []
    | item :: rest => do
      let result ← callNode setup limit fuel f [item]
      let results ← mapItems setup limit fuel f rest
      return result :: results

/-- The items on which a value called gives something true. -/
def filterItems (setup : Setup σ) (limit : Option Nat) (fuel : Nat) (f : Node) (items : List Node) :
    Direct σ (List Node) :=
  match fuel with
  | 0 => unfinished
  | fuel + 1 =>
    match items with
    | [] => pure []
    | item :: rest => do
      let result ← callNode setup limit fuel f [item]
      let kept ← filterItems setup limit fuel f rest
      return if result.isTruthy then item :: kept else kept

/-- Runs a program inside `eval` or `load`. -/
def runNested (setup : Setup σ) (limit : Option Nat) (fuel : Nat) (program : List Node) :
    Direct σ Node :=
  match fuel with
  | 0 => unfinished
  | fuel + 1 =>
    match limit with
    | none => evalSequence setup none fuel (.ofBool false) program
    | some 0 => lift (Eval.halt .exhausted)
    | some (k + 1) => evalSequence setup (some k) fuel (.ofBool false) program

/-- Evaluates what a value stands for; a fault becomes a value. -/
def evalValue (setup : Setup σ) (limit : Option Nat) (fuel : Nat) (n : Node) : Direct σ Node :=
  match fuel with
  | 0 => unfinished
  | fuel + 1 =>
    match Eval.codeOf setup n with
    | .error f => pure (.error {} f.message)
    | .ok code => fun s => do
      let (r, s) ← runNested setup limit fuel code s
      match r with
      | .error (.fault f) => return (.ok (.error {} f.message), s)
      | r => return (r, s)

/-- Runs a source file; faults name the file. -/
def loadFile (setup : Setup σ) (limit : Option Nat) (fuel : Nat) (path : String) : Direct σ Node :=
  match fuel with
  | 0 => unfinished
  | fuel + 1 => do
    match ← lift (Eval.askHost (setup.host.readFile · path)) with
    | .error reason => fail (.load path (.runtime (.unreadable reason)))
    | .ok source =>
      match setup.read source with
      | .error f => fail (.load path f)
      | .ok code => fun s => do
        let (r, s) ← runNested setup limit fuel code s
        match r with
        | .error (.fault f) => return (.error (.fault (.load path f)), s)
        | r => return (r, s)

end

/-- Runs a program. -/
def execute (setup : Setup σ) (limit : Option Nat) (fuel : Nat) (program : List Node) :
    Direct σ Node :=
  evalSequence setup limit fuel (.ofBool false) program

end Direct

end ExprShell
