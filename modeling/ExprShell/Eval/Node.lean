/-
Evaluation of nodes. Names are looked up and stand for themselves if nothing is found, lists
that are not quoted are calls, and everything else is its own value. The recursion follows the
node; other code is reached only through the reentry.
-/
import ExprShell.Eval.Call
import ExprShell.Pattern

namespace ExprShell

/-! ## Commands -/

/-- Variables for one run of a program, from quoted lists of names and values. -/
def Command.overrides : List Node → Except Fault (List (String × String))
  | [] => .ok []
  | n :: rest => do
    let items ← n.asList
    match Node.pairs? items with
    | some pairs =>
      let others ← overrides rest
      return pairs ++ others
    | none => throw (.invalidArguments "environment override" (.unpairedOverrides n))

/-- A list that is a call of something. -/
def Node.isCall : Node → Bool
  | .list s (_ :: _) => !s.quoted
  | _ => false

/-- Several nodes, or one that is no call, spell a command without a call around it. -/
def Node.spellCommand : List Node → Bool
  | [] => false
  | [n] => !n.isCall
  | _ => true

/-- The text without one line break at its end. -/
def Text.chomp (text : String) : String :=
  match text.toList.reverse with
  | '\n' :: '\r' :: rest => String.ofList rest.reverse
  | '\n' :: rest => String.ofList rest.reverse
  | _ => text

namespace Eval

variable {σ : Type}

/-- The path of a program that has to exist. -/
def programPath (setup : Setup σ) (name : String) : Eval σ String := fun s =>
  match setup.program? s.host name with
  | some path => (.ok path, s)
  | none => fail (.unboundProcedure name) s

/-- The output of a pipeline without the line break at its end. -/
def capture (setup : Setup σ) (commands : List Command) : Eval σ Node := do
  let done ← setup.pipeline commands none .capture
  return .ofString (Text.chomp (done.stdout.getD ""))

/-! ## Names -/

/-- Evaluates a node that is no list. -/
def evalLeaf : Node → Eval σ Node
  | .identifier s name =>
    if s.quoted then pure (.identifier s name)
    else do
      let env ← env
      return (env.lookup name).getD (.identifier s name)
  | n => pure n

/-- The name that a binding binds. -/
def bindingName (n : Node) : Except Fault String :=
  match n.symbol? with
  | some name => .ok name
  | none => .error (.wrongKind "a binding name" n)

/-- Allows a constant to be set where none is set yet and no procedure is active. -/
def checkConstant (name : String) : Eval σ Unit := do
  let env ← env
  match env.currentProcedure? with
  | some procedure => fail (.runtime (.constantInside name procedure))
  | none => if env.isConstant name then fail (.constantReassignment name) else pure ()

/-- Sets a constant. -/
def setConstant (name : String) (value : Node) : Eval σ Node := do
  let env ← env
  let next ← ofExcept (env.defineConstant name value)
  modifyEnv fun _ => next
  return value

/-- Binds a value; a function becomes a procedure of that name. -/
def setVariable (name : String) (value : Node) : Eval σ Node := do
  match value with
  | .function _ params body =>
    modifyEnv (·.defineProcedure name ⟨params, body⟩)
    return .defunc {} name
  | value =>
    modifyEnv (·.bind name value)
    return value

/-- Whether a name means something; the name is not evaluated. -/
def evalDefined (setup : Setup σ) (args : List Node) : Eval σ Node := do
  match args with
  | [.identifier _ name] | [.operator _ name] | [.string _ name] =>
    let env ← env
    return .ofBool (setup.isDefined env name)
  | [n] => fail (.wrongKind "a name" n)
  | args => fail (.arity Form.defined.name 1 args.length)

/-! ## Nodes -/

mutual

/-- Evaluates a node. -/
def evalNode (setup : Setup σ) (re : Reentry σ) : Node → Eval σ Node
  | .list s items => if s.quoted then pure (.list s items) else evalCall setup re items
  | n => evalLeaf n

/-- Evaluates arguments from left to right. -/
def evalArgs (setup : Setup σ) (re : Reentry σ) : List Node → Eval σ (List Node)
  | [] => pure []
  | n :: rest => do
    let value ← evalNode setup re n
    let values ← evalArgs setup re rest
    return value :: values

/-- Evaluates a call. -/
def evalCall (setup : Setup σ) (re : Reentry σ) : List Node → Eval σ Node
  | [] => fail (.runtime .emptyCall)
  | .operator _ name :: args =>
    match Form.ofName? name with
    | some .binding => evalLet setup re args
    | some .conditional => evalIf setup re args
    | some .conjunction => evalEvery setup re args
    | some .disjunction => evalSome setup re args
    | some .defined => evalDefined setup args
    | some .clauses => evalClauses setup re args
    | some .selection => evalMatch setup re args
    | some .hereString => evalHereString setup re args
    | some .pipeline => do
      let commands ← evalPipeline setup re args
      setup.runShown commands none
    | some .substitution =>
      if Node.spellCommand args then do
        let command ← evalStage setup re [] args
        capture setup [command]
      else do
        let commands ← evalLone setup re args
        capture setup commands
    | none => do
      let values ← evalArgs setup re args
      callNamed setup re name values
  | .function _ params body :: args => do
    let values ← evalArgs setup re args
    re.invoke Callee.anonymous ⟨params, body⟩ values
  | head :: args =>
    if head.isData then do
      let command ← evalStage setup re [head] args
      setup.runShown [command] none
    else do
      let f ← evalNode setup re head
      let values ← evalArgs setup re args
      callNode setup re f values

/-- Binds a variable, a procedure or a constant. -/
def evalLet (setup : Setup σ) (re : Reentry σ) : List Node → Eval σ Node
  | [flag, name, n] =>
    if flag.symbol? = some "global" then do
      let name ← ofExcept (bindingName name)
      checkConstant name
      let value ← evalNode setup re n
      setConstant name value
    else fail (.arity Form.binding.name 2 3)
  | [name, n] => do
    let name ← ofExcept (bindingName name)
    let value ← evalNode setup re n
    setVariable name value
  | args => fail (.arity Form.binding.name 2 args.length)

/-- Evaluates one of two branches; without a second one the value is false. -/
def evalIf (setup : Setup σ) (re : Reentry σ) : List Node → Eval σ Node
  | [test, yes] => do
    let value ← evalNode setup re test
    if value.isTruthy then evalNode setup re yes else pure (.ofBool false)
  | [test, yes, no] => do
    let value ← evalNode setup re test
    if value.isTruthy then evalNode setup re yes else evalNode setup re no
  | args => fail (.arity Form.conditional.name 3 args.length)

/-- All arguments are true; evaluates up to the first that is not. -/
def evalEvery (setup : Setup σ) (re : Reentry σ) : List Node → Eval σ Node
  | [] => pure (.ofBool true)
  | n :: rest => do
    let value ← evalNode setup re n
    if value.isTruthy then evalEvery setup re rest else pure (.ofBool false)

/-- Some argument is true; evaluates up to the first that is. -/
def evalSome (setup : Setup σ) (re : Reentry σ) : List Node → Eval σ Node
  | [] => pure (.ofBool false)
  | n :: rest => do
    let value ← evalNode setup re n
    if value.isTruthy then pure (.ofBool true) else evalSome setup re rest

/-- Evaluates the body of the first clause whose test is true. -/
def evalClauses (setup : Setup σ) (re : Reentry σ) : List Node → Eval σ Node
  | [] => pure (.ofBool false)
  | .list _ [test, body] :: rest => do
    let value ← evalNode setup re test
    if value.isTruthy then evalNode setup re body else evalClauses setup re rest
  | .list _ items :: _ => fail (.runtime (.badBranch items.length))
  | n :: _ => fail (.wrongKind "list" n)

/-- Evaluates a scrutinee and then the first branch whose pattern matches it. -/
def evalMatch (setup : Setup σ) (re : Reentry σ) : List Node → Eval σ Node
  | [] => fail (.runtime .missingScrutinee)
  | n :: branches => do
    let scrutinee ← evalNode setup re n
    evalBranches setup re scrutinee branches

/-- Evaluates the body of the first branch whose pattern matches, with its captures bound. -/
def evalBranches (setup : Setup σ) (re : Reentry σ) (scrutinee : Node) :
    List Node → Eval σ Node
  | [] => pure (.ofBool false)
  | .list _ [pattern, body] :: rest => do
    match ← evalPattern setup re scrutinee pattern with
    | some captures =>
      modifyEnv (·.bindAll captures)
      evalNode setup re body
    | none => evalBranches setup re scrutinee rest
  | .list _ items :: _ => fail (.runtime (.badBranch items.length))
  | n :: _ => fail (.wrongKind "list" n)

/-- Matches the scrutinee with a pattern, whose operand is evaluated first. -/
def evalPattern (setup : Setup σ) (re : Reentry σ) (scrutinee : Node) :
    Node → Eval σ (Option Captures)
  | .list s [head, operand] =>
    if s.quoted then pure (Node.matches? (.list s [head, operand]) scrutinee)
    else
      match Relation.ofHead? head with
      | some r => do
        let value ← evalNode setup re operand
        ofExcept (r.test none scrutinee value)
      | none => do
        let value ← evalCall setup re [head, operand]
        return if value.same scrutinee then some [] else none
  | .list s [head, capture, operand] =>
    if s.quoted then pure (Node.matches? (.list s [head, capture, operand]) scrutinee)
    else
      match Relation.ofHead? head with
      | some r => do
        let value ← evalNode setup re operand
        ofExcept (r.test (some capture) scrutinee value)
      | none =>
        if head.operatorName? = some "cons" then do
          let captures ← ofExcept (Node.destructure scrutinee capture operand)
          return some captures
        else do
          let value ← evalCall setup re [head, capture, operand]
          return if value.same scrutinee then some [] else none
  | .list s items =>
    if s.quoted then pure (Node.matches? (.list s items) scrutinee)
    else do
      let value ← evalCall setup re items
      return if value.same scrutinee then some [] else none
  | n =>
    if n.isWildcard then pure (some [("_", scrutinee)])
    else do
      let value ← evalLeaf n
      return if value.same scrutinee then some [] else none

/-- The commands of the one call that a substitution is given. -/
def evalLone (setup : Setup σ) (re : Reentry σ) : List Node → Eval σ (List Command)
  | [n] => evalCommands setup re n
  | args => fail (.arity Form.substitution.name 1 args.length)

/-- Feeds a text to commands. -/
def evalHereString (setup : Setup σ) (re : Reentry σ) : List Node → Eval σ Node
  | [text, n] => do
    let text ← evalNode setup re text
    let commands ← evalCommands setup re n
    setup.runShown commands (some text.plain)
  | args => fail (.arity Form.hereString.name 2 args.length)

/-- A single command, or those of a pipeline. -/
def evalCommands (setup : Setup σ) (re : Reentry σ) : Node → Eval σ (List Command)
  | .list s (head :: rest) =>
    if s.quoted then fail (.mistyped "a command" Kind.list.name)
    else if head.operatorName? = some Form.pipeline.name then evalPipeline setup re rest
    else do
      let command ← evalStage setup re [] (head :: rest)
      return [command]
  | n => fail (.wrongKind "a command" n)

/-- The commands of a pipeline, of which there has to be one. -/
def evalPipeline (setup : Setup σ) (re : Reentry σ) : List Node → Eval σ (List Command)
  | [] => fail (.runtime .emptyPipeline)
  | n :: rest => do
    let command ← evalCommand setup re n
    let commands ← evalStages setup re rest
    return command :: commands

/-- The commands of several calls. -/
def evalStages (setup : Setup σ) (re : Reentry σ) : List Node → Eval σ (List Command)
  | [] => pure []
  | n :: rest => do
    let command ← evalCommand setup re n
    let commands ← evalStages setup re rest
    return command :: commands

/-- The command of a call. -/
def evalCommand (setup : Setup σ) (re : Reentry σ) : Node → Eval σ Command
  | .list s (head :: rest) =>
    if s.quoted then fail (.mistyped "a command" Kind.list.name)
    else evalStage setup re [] (head :: rest)
  | n => fail (.wrongKind "a command" n)

/-- A command: quoted lists of variables, the name of a program, and its arguments. The
program is looked for before the arguments are evaluated. -/
def evalStage (setup : Setup σ) (re : Reentry σ) (overrides : List Node) :
    List Node → Eval σ Command
  | [] => fail (.runtime .overridesWithoutCommand)
  | head :: rest =>
    if head.isData then evalStage setup re (overrides ++ [head]) rest
    else do
      let env ← ofExcept (Command.overrides overrides)
      let name ← evalName setup re head
      let program ← programPath setup name
      let values ← evalArgs setup re rest
      return { program, args := Node.argumentsOf values, env }

/-- The name of a program. -/
def evalName (setup : Setup σ) (re : Reentry σ) : Node → Eval σ String
  | .operator _ name => pure name
  | .list s items =>
    if s.quoted then pure (Node.list s items).plain
    else do
      let value ← evalCall setup re items
      return value.plain
  | n => do
    let value ← evalLeaf n
    return value.plain

end

/-- Evaluates expressions in order and gives the last value, or the one given if there is
none. -/
def evalSequence (setup : Setup σ) (re : Reentry σ) (last : Node) : List Node → Eval σ Node
  | [] => pure last
  | n :: rest => do
    let value ← evalNode setup re n
    evalSequence setup re value rest

/-- Runs a program: its last value, false if it is empty. -/
def execute (setup : Setup σ) (re : Reentry σ) (program : List Node) : Eval σ Node :=
  evalSequence setup re (.ofBool false) program

end Eval

end ExprShell
