/-
The parts of evaluation that take lists apart, written once more with reads by index. The reads are
not checked and get stuck where there is nothing to read: in the operands of arithmetic, the catalog
of patterns with its handlers, the head and the arguments of commands, and the pairs of their
variables. They compute what evaluation computes (`Unchecked.arithmetic_eq`,
`Unchecked.evalPattern_eq`, `Unchecked.evalStage_eq`, `Unchecked.evalCommands_eq`), so there is
always something to read.
-/
import ExprShell.Proofs.Node.Inert
import ExprShell.Session

namespace ExprShell

variable {σ α β : Type}

/-! ## Reads by index -/

namespace Unchecked

open Eval

/-- The item at an index. -/
def item (items : List α) (i : Nat) : Eval σ α :=
  match items[i]? with
  | some a => pure a
  | none => stuck

/-- The items from an index on. -/
def itemsFrom (items : List α) (i : Nat) : Eval σ (List α) :=
  if i ≤ items.length then pure (items.drop i) else stuck

/-- The items before an index. -/
def itemsBefore (items : List α) (i : Nat) : Eval σ (List α) :=
  if i ≤ items.length then pure (items.take i) else stuck

theorem item_of_getElem? {items : List α} {i : Nat} {a : α} (h : items[i]? = some a) :
    (item items i : Eval σ α) = pure a := by
  rw [item, h]

theorem itemsFrom_of_le {items : List α} {i : Nat} (h : i ≤ items.length) :
    (itemsFrom items i : Eval σ (List α)) = pure (items.drop i) :=
  if_pos h

theorem itemsBefore_of_le {items : List α} {i : Nat} (h : i ≤ items.length) :
    (itemsBefore items i : Eval σ (List α)) = pure (items.take i) :=
  if_pos h

theorem pure_bind (a : α) (f : α → Eval σ β) : (pure a >>= f) = f a :=
  rfl

/-! ## Arithmetic -/

/-- An operation on numbers; the divisors are the operands from the second one on. -/
def onNumbers (op : Operation) (operands : List Number) : Eval σ Number :=
  match operands.isEmpty, op.unit? with
  | true, some n => pure (.int n)
  | _, _ => do
    let divisors ← if op.divides then itemsFrom operands 1 else pure []
    if divisors.any Number.isZero then fail .divisionByZero
    else if op = .sub && operands.length == 1 then ofExcept (op.fold (.int 0 :: operands))
    else ofExcept (op.fold operands)

def arithmetic (op : Operation) (args : List Node) : Eval σ Node :=
  if args.length < op.leastArgs then
    fail (.invalidArguments op.symbol (.tooFew op.leastArgs args.length))
  else do
    let operands ← ofExcept (Node.asNumbers args)
    let n ← onNumbers op operands
    return .ofNumber n

/-! ## Patterns -/

mutual

/-- The shape of a template: names stand for anything. -/
def weakSame : Node → Node → Bool
  | .identifier .., _ => true
  | _, .identifier .. => true
  | .operator _ a, .operator _ b => a == b
  | .list _ as, .list _ bs => weakSameAll as bs
  | a, b => a.same b

def weakSameAll : List Node → List Node → Bool
  | [], [] => true
  | a :: as, b :: bs => weakSame a b && weakSameAll as bs
  | _, _ => false

end

/-- What is done with the arguments of a pattern. -/
inductive Handler where
  /-- Holds the scrutinee against the first argument. -/
  | relation (r : Relation)
  /-- Holds the scrutinee against the second argument, to be captured under the first. -/
  | capturing (r : Relation)
  /-- Takes a list apart under two names. -/
  | destructure

/-- An entry of the catalog of patterns. -/
structure Entry where
  name : String
  params : List String
  handler : Handler

def Entry.template (e : Entry) : Node :=
  .call (.operator {} e.name :: e.params.map (.identifier {}))

/-- The catalog; the first template of the shape of a pattern counts. -/
def catalog : List Entry :=
  [⟨"in", ["l"], .relation .member⟩, ⟨"in", ["a", "l"], .capturing .member⟩,
    ⟨"<", ["x"], .relation .less⟩, ⟨"<", ["a", "b"], .capturing .less⟩,
    ⟨">", ["x"], .relation .greater⟩, ⟨">", ["a", "b"], .capturing .greater⟩,
    ⟨"=", ["x"], .relation .equal⟩, ⟨"=", ["a", "x"], .capturing .equal⟩,
    ⟨"!=", ["x"], .relation .notEqual⟩, ⟨"!=", ["a", "x"], .capturing .notEqual⟩,
    ⟨"cons", ["a", "b"], .destructure⟩]

variable (setup : Setup σ) (re : Reentry σ)

def Handler.run (scrutinee : Node) (args : List Node) : Handler → Eval σ (Option Captures)
  | .relation r => do
    let operand ← item args 0
    let value ← evalNode setup re operand
    ofExcept (r.test none scrutinee value)
  | .capturing r => do
    let operand ← item args 1
    let value ← evalNode setup re operand
    let capture ← item args 0
    ofExcept (r.test (some capture) scrutinee value)
  | .destructure => do
    let head ← item args 0
    let tail ← item args 1
    let captures ← ofExcept (Node.destructure scrutinee head tail)
    return some captures

/-- Runs the handler of an entry, on exactly as many arguments as its template has. -/
def Entry.run (e : Entry) (scrutinee : Node) (args : List Node) : Eval σ (Option Captures) :=
  if args.length = e.params.length then e.handler.run setup re scrutinee args else stuck

/-- Matches the scrutinee with the value of a pattern. -/
def evalEquality (scrutinee pattern : Node) : Eval σ (Option Captures) := do
  let value ← evalNode setup re pattern
  return if value.same scrutinee then some [] else none

def evalPattern (scrutinee pattern : Node) : Eval σ (Option Captures) :=
  if pattern.isWildcard then pure (some [("_", scrutinee)])
  else
    match pattern with
    | .list s items =>
      if s.quoted then pure (Node.matches? (.list s items) scrutinee)
      else
        match catalog.find? fun e => weakSame e.template (.list s items) with
        | some e => do
          let args ← itemsFrom items 1
          e.run setup re scrutinee args
        | none => evalEquality setup re scrutinee (.list s items)
    | n => evalEquality setup re scrutinee n

/-! ## Commands -/

/-- Pieces of two items, of which the last may have one only. -/
def chunks : List α → List (List α)
  | [] => []
  | [a] => [[a]]
  | a :: b :: rest => [a, b] :: chunks rest

/-- Names and values of variables. -/
def pairs : List (List Node) → Eval σ (List (String × String))
  | [] => pure []
  | pair :: rest => do
    let name ← item pair 0
    let value ← item pair 1
    let others ← pairs rest
    return (name.plain, value.plain) :: others

def overrides : List Node → Eval σ (List (String × String))
  | [] => pure []
  | n :: rest => do
    let items ← ofExcept n.asList
    if items.length % 2 = 0 then do
      let found ← pairs (chunks items)
      let others ← overrides rest
      return found ++ others
    else fail (.invalidArguments "environment override" (.unpairedOverrides n))

/-- A command: what stands before the first item that is no quoted list sets variables. -/
def evalStage (items : List Node) : Eval σ Command :=
  match items.findIdx? fun n => !n.isData with
  | none => fail (.runtime .overridesWithoutCommand)
  | some split => do
    let before ← itemsBefore items split
    let env ← overrides before
    let head ← item items split
    let name ← evalName setup re head
    let program ← programPath setup name
    let rest ← itemsFrom items (split + 1)
    let values ← evalArgs setup re rest
    return { program, args := Node.argumentsOf values, env }

/-- A single command, or those of a pipeline. -/
def evalCommands (n : Node) : Eval σ (List Command) :=
  if n.isCall then do
    let items ← ofExcept n.asList
    let head ← item items 0
    if head.operatorName? = some Form.pipeline.name then do
      let rest ← itemsFrom items 1
      evalPipeline setup re rest
    else do
      let command ← evalStage setup re items
      return [command]
  else fail (.wrongKind "a command" n)

/-! ## Agreement -/

/-- The command after the quoted lists at the start of its items. -/
def command (before : List Node) (head : Node) (rest : List Node) : Eval σ Command := do
  let env ← ofExcept (Command.overrides before)
  let name ← evalName setup re head
  let program ← programPath setup name
  let values ← evalArgs setup re rest
  return { program, args := Node.argumentsOf values, env }

section Agreement

variable {setup re}

theorem ofExcept_bind (r : Except Fault α) (f : α → Except Fault β) :
    (ofExcept (r >>= f) : Eval σ β) = ofExcept r >>= fun a => ofExcept (f a) := by
  cases r with
  | ok a => rfl
  | error e => rfl

/-! ### Arithmetic -/

theorem length_asNumbers {args : List Node} {operands : List Number}
    (h : Node.asNumbers args = .ok operands) : operands.length = args.length := by
  induction args generalizing operands with
  | nil =>
    cases h
    rfl
  | cons n rest ih =>
    obtain ⟨m, -, h⟩ := exists_of_bind_eq_ok h
    obtain ⟨ms, hms, h⟩ := exists_of_bind_eq_ok h
    cases h
    simp [ih hms]

/-- There is a first operand wherever divisors are looked for. -/
theorem onNumbers_eq {op : Operation} {operands : List Number}
    (h : op.leastArgs ≤ operands.length) :
    (onNumbers op operands : Eval σ Number) = ofExcept (op.onNumbers operands) := by
  cases operands with
  | nil =>
    cases op with
    | add | mul => rfl
    | sub | div | rem => simp [Operation.leastArgs] at h
  | cons first rest =>
    have hfrom : (itemsFrom (first :: rest) 1 : Eval σ (List Number)) = pure rest :=
      itemsFrom_of_le (by simp)
    -- A single operand of a difference is negated, whichever way one asks that it is single.
    have hfold : (if op = .sub && (first :: rest).length == 1 then
          ofExcept (op.fold (.int 0 :: first :: rest))
        else ofExcept (op.fold (first :: rest)) : Eval σ Number) =
        ofExcept (if op = .sub && rest.isEmpty then op.fold [.int 0, first]
          else op.fold (first :: rest)) := by
      cases rest with
      | nil => cases op <;> rfl
      | cons second rest => simp
    simp only [onNumbers, Operation.onNumbers, List.isEmpty_cons, hfold]
    cases op.divides with
    | false => rfl
    | true =>
      simp only [if_true, hfrom, pure_bind, Bool.true_and]
      split
      · rfl
      · rfl

theorem arithmetic_eq (op : Operation) (args : List Node) :
    (arithmetic op args : Eval σ Node) = ofExcept (op.apply args) := by
  unfold arithmetic Operation.apply
  split
  · rfl
  · next hleast =>
    cases hoperands : Node.asNumbers args with
    | error f => rfl
    | ok operands =>
      have hlength := length_asNumbers hoperands
      have honNumbers : (onNumbers op operands : Eval σ Number) = _ :=
        onNumbers_eq (by omega)
      simp only [ofExcept_bind]
      exact congrArg (· >>= fun n => pure (Node.ofNumber n)) honNumbers

/-! ### Patterns -/

/-- The operator of a template fits the same operator, and a name. -/
def fitsHead (name : String) : Node → Bool
  | .operator _ other => name == other
  | .identifier .. => true
  | _ => false

theorem weakSame_operator (s : Stamp) (name : String) (head : Node) :
    weakSame (.operator s name) head = fitsHead name head := by
  cases head with
  | _ => rfl

theorem weakSameAll_params (params : List String) (args : List Node) :
    weakSameAll (params.map (.identifier {})) args = (args.length == params.length) := by
  induction params generalizing args with
  | nil =>
    cases args with
    | nil => rfl
    | cons => rfl
  | cons param params ih =>
    cases args with
    | nil => rfl
    | cons n rest =>
      have hname : weakSame (.identifier {} param) n = true := by
        cases n with
        | _ => rfl
      simp [weakSameAll, hname, ih]

/-- A template fits calls with a fitting head and as many arguments as it has. -/
theorem weakSame_template (e : Entry) (s : Stamp) (head : Node) (args : List Node) :
    weakSame e.template (.list s (head :: args)) =
      (fitsHead e.name head && args.length == e.params.length) := by
  have hlist : weakSame e.template (.list s (head :: args)) =
      (weakSame (.operator {} e.name) head &&
        weakSameAll (e.params.map (.identifier {})) args) := rfl
  rw [hlist, weakSame_operator, weakSameAll_params]

theorem weakSame_template_nil (e : Entry) (s : Stamp) :
    weakSame e.template (.list s []) = false :=
  rfl

/-- The entry that a call with this head and so many arguments has the shape of. -/
def entryFor? (head : Node) (count : Nat) : Option Entry :=
  catalog.find? fun e => fitsHead e.name head && count == e.params.length

theorem find?_catalog (s : Stamp) (head : Node) (args : List Node) :
    (catalog.find? fun e => weakSame e.template (.list s (head :: args))) =
      entryFor? head args.length := by
  unfold entryFor?
  simp only [weakSame_template]

/-- The two entries of a relation are the first ones of their shape. -/
theorem entryFor?_of_relation {head : Node} {r : Relation} (h : Relation.ofHead? head = some r) :
    (∃ e, entryFor? head 1 = some e ∧ e.params.length = 1 ∧ e.handler = .relation r) ∧
      ∃ e, entryFor? head 2 = some e ∧ e.params.length = 2 ∧ e.handler = .capturing r := by
  cases head with
  | identifier =>
    cases h
    exact ⟨⟨_, rfl, rfl, rfl⟩, _, rfl, rfl, rfl⟩
  | operator s name =>
    rw [Relation.ofHead?, Relation.ofName?.eq_def] at h
    split at h
    all_goals cases h
    all_goals simp [entryFor?, catalog, fitsHead]
  | _ => cases h

/-- An operator that is no relation. -/
theorem fitsHead_of_none {head : Node} (h : Relation.ofHead? head = none) {name : String}
    (hname : name ∈ ["in", "<", ">", "=", "!="]) : fitsHead name head = false := by
  cases head with
  | identifier => cases h
  | operator s other =>
    by_cases heq : name = other
    · subst heq
      simp only [List.mem_cons, List.not_mem_nil, or_false] at hname
      rcases hname with rfl | rfl | rfl | rfl | rfl
      all_goals cases h
    · simp [fitsHead, heq]
  | _ => rfl

theorem entryFor?_of_none {head : Node} (h : Relation.ofHead? head = none) (count : Nat) :
    entryFor? head count = if fitsHead "cons" head && count == 2
      then some ⟨"cons", ["a", "b"], .destructure⟩ else none := by
  simp only [entryFor?, catalog, List.find?_cons, List.find?_nil, fitsHead_of_none h,
    List.mem_cons, true_or, or_true, Bool.false_and]
  cases fitsHead "cons" head && count == 2 with
  | true => rfl
  | false => rfl

/-- Every template has one argument or two. -/
theorem entryFor?_of_count (head : Node) {count : Nat} (hone : count ≠ 1) (htwo : count ≠ 2) :
    entryFor? head count = none := by
  simp [entryFor?, catalog, hone, htwo]

theorem fitsHead_cons (head : Node) (h : Relation.ofHead? head = none) :
    fitsHead "cons" head = decide (head.operatorName? = some "cons") := by
  cases head with
  | identifier => cases h
  | operator s name =>
    by_cases hname : name = "cons"
    · simp [fitsHead, Node.operatorName?, hname]
    · simp [fitsHead, Node.operatorName?, hname, Ne.symm hname]
  | _ => rfl

/-- A call of no shape in the catalog. -/
theorem evalPattern_of_none {s : Stamp} {items : List Node} (hquoted : s.quoted = false)
    (h : (catalog.find? fun e => weakSame e.template (.list s items)) = none) (scrutinee : Node) :
    evalPattern setup re scrutinee (.list s items) = Eval.evalCall setup re items >>= fun value =>
      pure (if value.same scrutinee then some [] else none) := by
  have hnode : Eval.evalNode setup re (.list s items) = Eval.evalCall setup re items := by
    rw [Eval.evalNode, hquoted]
    rfl
  unfold evalPattern
  simp only [Node.isWildcard, hquoted, h, evalEquality, hnode]
  rfl

/-- A call of the shape of an entry. -/
theorem evalPattern_of_entry {s : Stamp} {head : Node} {args : List Node} {e : Entry}
    (hquoted : s.quoted = false) (h : entryFor? head args.length = some e)
    (hparams : e.params.length = args.length) (scrutinee : Node) :
    evalPattern setup re scrutinee (.list s (head :: args)) =
      e.handler.run setup re scrutinee args := by
  have hfrom : (itemsFrom (head :: args) 1 : Eval σ (List Node)) = pure args :=
    itemsFrom_of_le (by simp)
  unfold evalPattern
  simp only [Node.isWildcard, hquoted, find?_catalog, h, hfrom, pure_bind, Entry.run, hparams]
  rfl

theorem evalPattern_eq (scrutinee pattern : Node) :
    evalPattern setup re scrutinee pattern = Eval.evalPattern setup re scrutinee pattern := by
  cases pattern with
  | list s items =>
    cases hquoted : s.quoted with
    | true =>
      rcases items with _ | ⟨head, _ | ⟨a, _ | ⟨b, _ | ⟨c, rest⟩⟩⟩⟩
      all_goals simp [evalPattern, Eval.evalPattern, hquoted, Node.isWildcard]
    | false =>
      rcases items with _ | ⟨head, _ | ⟨a, _ | ⟨b, _ | ⟨c, rest⟩⟩⟩⟩
      · rw [evalPattern_of_none hquoted (by simp [weakSame_template_nil])]
        simp [Eval.evalPattern, hquoted]
      · rw [evalPattern_of_none hquoted]
        · simp [Eval.evalPattern, hquoted]
        · rw [find?_catalog, List.length_nil]
          exact entryFor?_of_count head (by decide) (by decide)
      · cases hrelation : Relation.ofHead? head with
        | some r =>
          obtain ⟨⟨e, he, hparams, hhandler⟩, -⟩ := entryFor?_of_relation hrelation
          rw [evalPattern_of_entry hquoted he hparams, hhandler]
          simp [Eval.evalPattern, hquoted, hrelation, Handler.run, item, pure_bind]
        | none =>
          rw [evalPattern_of_none hquoted]
          · simp [Eval.evalPattern, hquoted, hrelation]
          · rw [find?_catalog, entryFor?_of_none hrelation]
            simp
      · cases hrelation : Relation.ofHead? head with
        | some r =>
          obtain ⟨-, e, he, hparams, hhandler⟩ := entryFor?_of_relation hrelation
          rw [evalPattern_of_entry hquoted he hparams, hhandler]
          simp [Eval.evalPattern, hquoted, hrelation, Handler.run, item, pure_bind]
        | none =>
          have hentry := entryFor?_of_none hrelation 2
          rw [fitsHead_cons head hrelation] at hentry
          by_cases hcons : head.operatorName? = some "cons"
          · rw [evalPattern_of_entry hquoted (e := ⟨"cons", ["a", "b"], .destructure⟩)]
            · simp [Eval.evalPattern, hquoted, hrelation, hcons, Handler.run, item, pure_bind]
            · simpa [hcons] using hentry
            · rfl
          · rw [evalPattern_of_none hquoted]
            · simp [Eval.evalPattern, hquoted, hrelation, hcons]
            · rw [find?_catalog]
              simpa [hcons] using hentry
      · rw [evalPattern_of_none hquoted]
        · simp [Eval.evalPattern, hquoted]
        · rw [find?_catalog]
          exact entryFor?_of_count head (by simp) (by simp)
  | _ => simp [evalPattern, Eval.evalPattern, evalEquality, Eval.evalNode]

/-! ### Commands -/

/-- Items that make pairs are cut into complete ones. -/
theorem pairs_chunks : ∀ items : List Node,
    (items.length % 2 = 0 → ∃ found, Node.pairs? items = some found ∧
      (pairs (chunks items) : Eval σ (List (String × String))) = pure found) ∧
    (items.length % 2 ≠ 0 → Node.pairs? items = none)
  | [] => ⟨fun _ => ⟨[], rfl, rfl⟩, fun h => absurd rfl h⟩
  | [_] => ⟨fun h => by simp at h, fun _ => rfl⟩
  | name :: value :: rest => by
    obtain ⟨heven, hodd⟩ := pairs_chunks rest
    simp only [List.length_cons]
    constructor
    · intro h
      obtain ⟨found, hfound, hpairs⟩ := heven (by omega)
      refine ⟨(name.plain, value.plain) :: found, by simp [Node.pairs?, hfound], ?_⟩
      simp only [chunks, pairs, hpairs]
      rfl
    · intro h
      simp [Node.pairs?, hodd (by omega)]

theorem overrides_eq (nodes : List Node) :
    (overrides nodes : Eval σ (List (String × String))) =
      ofExcept (Command.overrides nodes) := by
  induction nodes with
  | nil => rfl
  | cons n rest ih =>
    simp only [overrides, Command.overrides, ofExcept_bind]
    refine congrArg (ofExcept n.asList >>= ·) (funext fun items => ?_)
    obtain ⟨heven, hodd⟩ := pairs_chunks (σ := σ) items
    by_cases hlength : items.length % 2 = 0
    · obtain ⟨found, hfound, hpairs⟩ := heven hlength
      simp only [hlength, if_true, hfound, hpairs, ih, ofExcept_bind, pure_bind]
      rfl
    · simp only [hlength, if_false, hodd hlength]
      rfl

/-- Quoted lists up to the end are variables without a command. -/
theorem evalStage_of_none {items : List Node}
    (h : (items.findIdx? fun n => !n.isData) = none) (before : List Node) :
    Eval.evalStage setup re before items = fail (.runtime .overridesWithoutCommand) := by
  induction items generalizing before with
  | nil => rfl
  | cons n rest ih =>
    simp only [List.findIdx?_cons] at h
    cases hdata : n.isData with
    | false => simp [hdata] at h
    | true =>
      simp only [hdata, Bool.not_true, Bool.false_eq_true, if_false, Option.map_eq_none_iff] at h
      rw [Eval.evalStage, hdata, if_pos rfl]
      exact ih h _

theorem evalStage_of_some (setup : Setup σ) (re : Reentry σ) {items : List Node} {split : Nat}
    (h : (items.findIdx? fun n => !n.isData) = some split) (before : List Node) :
    ∃ head, items[split]? = some head ∧ Eval.evalStage setup re before items =
      command setup re (before ++ items.take split) head (items.drop (split + 1)) := by
  induction items generalizing before split with
  | nil => simp at h
  | cons n rest ih =>
    simp only [List.findIdx?_cons] at h
    cases hdata : n.isData with
    | false =>
      simp only [hdata, Bool.not_false, if_true, Option.some.injEq] at h
      subst h
      refine ⟨n, rfl, ?_⟩
      rw [Eval.evalStage, hdata]
      simp [command]
    | true =>
      simp only [hdata, Bool.not_true, Bool.false_eq_true, if_false, Option.map_eq_some_iff] at h
      obtain ⟨split, hsplit, rfl⟩ := h
      obtain ⟨head, hhead, hstage⟩ := ih hsplit (before ++ [n])
      refine ⟨head, hhead, ?_⟩
      rw [Eval.evalStage, hdata, if_pos rfl, hstage]
      simp

theorem evalStage_eq (items : List Node) :
    evalStage setup re items = Eval.evalStage setup re [] items := by
  unfold evalStage
  cases hsplit : items.findIdx? fun n => !n.isData with
  | none => rw [evalStage_of_none hsplit]
  | some split =>
    obtain ⟨head, hhead, hstage⟩ := evalStage_of_some setup re hsplit []
    have hlt : split < items.length := (List.getElem?_eq_some_iff.1 hhead).1
    have hbefore : (itemsBefore items split : Eval σ (List Node)) = pure (items.take split) :=
      itemsBefore_of_le (by omega)
    have hitem : (item items split : Eval σ Node) = pure head := item_of_getElem? hhead
    have hfrom : (itemsFrom items (split + 1) : Eval σ (List Node)) =
        pure (items.drop (split + 1)) := itemsFrom_of_le hlt
    rw [hstage]
    simp only [hbefore, hitem, hfrom, pure_bind, overrides_eq, List.nil_append, command]

theorem evalCommands_eq (n : Node) :
    evalCommands setup re n = Eval.evalCommands setup re n := by
  cases n with
  | list s items =>
    cases items with
    | nil => rfl
    | cons head rest =>
      have hitem : (item (head :: rest) 0 : Eval σ Node) = pure head := rfl
      have hfrom : (itemsFrom (head :: rest) 1 : Eval σ (List Node)) = pure rest :=
        itemsFrom_of_le (by simp)
      have hlist : (ofExcept (Node.list s (head :: rest)).asList : Eval σ (List Node)) =
          pure (head :: rest) := rfl
      rw [Eval.evalCommands]
      cases hquoted : s.quoted with
      | true => simp [evalCommands, Node.isCall, hquoted, Fault.wrongKind, Node.kind]
      | false =>
        simp only [evalCommands, Node.isCall, hquoted, hlist, hitem, hfrom, pure_bind,
          evalStage_eq]
        rfl
  | _ => rfl

end Agreement

end Unchecked

end ExprShell
